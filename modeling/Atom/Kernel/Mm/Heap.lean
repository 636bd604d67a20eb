import Atom.Kernel.Mm.Pmm
import Atom.Lib.Align

/-!
# Memory — the kernel heap

The bump allocator of `kernel/src/mm/heap.rs`. `heap::init` takes `HEAP_SIZE` of contiguous pages
from `pmm`, or a quarter of it, and halts when neither is to be had; the heap is then the range
from `HEAP_START` to `HEAP_END`, and `HEAP_POS` moves up through it. `KernelAllocator::alloc`
rounds the position up to the layout's alignment with `align_up`, in `usize`, and hands out the
block there when it ends by `HEAP_END`; otherwise, and before `init`, it returns null. `dealloc`
does nothing.

`heap::init` runs after `vm::init` has taken its PML4 with `alloc_page`, so page `0` is no longer
free and `HEAP_START`, a page address, is never `0`, the value by
which `alloc` knows a heap that is not yet initialised.

* `toNat_alignUp`: for a valid `Layout` and a position below `2 ^ 63`, `align_up` does not wrap
  and rounds up (`Align.roundUp`).
* `alloc_spec`: one call returns null exactly when the rounded block would end past `HEAP_END`,
  and otherwise returns an aligned block at or after the position and moves the position to its
  end.
* `init_inv`: the heap `init` makes from a reachable allocator whose page `0` is taken keeps
  `Inv`.
* `alloc_run`: over every sequence of calls after `init`, the blocks are aligned, lie in the
  heap, and each ends before any later one begins; each call returns null exactly when its
  rounded block does not fit.

`get_stats` is left out: nothing calls it.
-/

namespace Atom

open Lib

/-- `HEAP_SIZE`. -/
def HEAP_SIZE : Nat := 4 * 1024 * 1024

/-- `isize::MAX`. -/
def ISIZE_MAX : Nat := 2 ^ 63 - 1

/-- A `Layout`: its alignment is a power of two, and its size rounded up to the alignment stays
within `isize::MAX`. -/
structure Layout where
  size : UInt64
  align : UInt64
  align_pow : ∃ k, align.toNat = 2 ^ k
  size_le : size.toNat ≤ ISIZE_MAX - (align.toNat - 1)

/-- The alignment of a layout, a power of two in `usize`, is at most `2 ^ 63`. -/
theorem Layout.align_spec (l : Layout) :
    ∃ k, l.align.toNat = 2 ^ k ∧ k ≤ 63 ∧ l.align.toNat ≤ 2 ^ 63 := by
  obtain ⟨k, hk⟩ := l.align_pow
  have hk63 : k ≤ 63 := by
    by_contra hgt
    have h64 : 2 ^ 64 ≤ 2 ^ k := Nat.pow_le_pow_right (by decide) (by omega)
    have := l.align.toNat_lt
    omega
  exact ⟨k, hk, hk63, hk ▸ Nat.pow_le_pow_right (by decide) hk63⟩

/-- The statics of the heap: `HEAP_START`, `HEAP_POS` and `HEAP_END`. -/
structure Heap where
  start : UInt64
  pos : UInt64
  «end» : UInt64
  deriving DecidableEq, Repr

namespace Heap

/-- The statics before `init`. -/
def empty : Heap := ⟨0, 0, 0⟩

/-- The heap of `actualPages` pages from `heapBase`. -/
def ofBase (heapBase actualPages : Nat) : Heap :=
  let actualSize := actualPages * PAGE_SIZE
  ⟨.ofNat heapBase, .ofNat heapBase, .ofNat (heapBase + actualSize)⟩

/-- `heap::init`: `HEAP_SIZE` in pages, or a quarter of them; when `pmm` has neither, the kernel
halts (`none`). -/
def init (s : Pmm) : Option (Heap × Pmm) :=
  let numPages := HEAP_SIZE / PAGE_SIZE
  match s.allocPages numPages with
  | (some heapBase, s₁) => some (ofBase heapBase numPages, s₁)
  | (none, s₁) =>
      match s₁.allocPages (numPages / 4) with
      | (some heapBase, s₂) => some (ofBase heapBase (numPages / 4), s₂)
      | (none, _) => none

/-- `align_up`, in `usize`. -/
def alignUp (val align : UInt64) : UInt64 := (val + align - 1) &&& ~~~(align - 1)

/-- `KernelAllocator::alloc`; the null pointer is `0`. -/
def alloc (h : Heap) (layout : Layout) : UInt64 × Heap :=
  if h.start = 0 then (0, h)
  else
    let aligned := alignUp h.pos layout.align
    let newPos := aligned + layout.size
    if newPos > h.end then (0, h)
    else (aligned, { h with pos := newPos })

/-! ### `align_up` -/

/-- **`align_up` does not wrap** below `2 ^ 63`: it rounds the position up to the alignment. -/
theorem toNat_alignUp (l : Layout) {val : UInt64} (hval : val.toNat < 2 ^ 63) :
    (alignUp val l.align).toNat = Align.roundUp val.toNat l.align.toNat := by
  obtain ⟨k, hk, hk63, hle⟩ := l.align_spec
  have hpos : 1 ≤ l.align.toNat := hk ▸ Nat.two_pow_pos k
  have hsum : (val + l.align).toNat = val.toNat + l.align.toNat := by
    rw [UInt64.toNat_add, Nat.mod_eq_of_lt (by omega)]
  have hsub : (val + l.align - 1).toNat = val.toNat + l.align.toNat - 1 := by
    rw [UInt64.toNat_sub_of_le _ _ (UInt64.le_iff_toNat_le.mpr (by rw [hsum]; simp; omega)), hsum]
    rfl
  have hmask : (l.align - 1).toNat = 2 ^ k - 1 := by
    rw [UInt64.toNat_sub_of_le _ _ (UInt64.le_iff_toNat_le.mpr (by simpa using hpos)), hk]
    rfl
  rw [alignUp, UInt64.toNat_and, UInt64.toNat_not, hsub, hmask, show UInt64.size = 2 ^ 64 from rfl,
    Align.and_mask_eq (by omega) (by omega), ← hk]
  rfl

/-! ### One call -/

/-- The heap after `init`: `HEAP_START` is not `0`, the position lies between `HEAP_START` and
`HEAP_END`, and the heap lies below `2 ^ 63`. -/
structure Inv (h : Heap) : Prop where
  start_pos : 0 < h.start.toNat
  start_le : h.start.toNat ≤ h.pos.toNat
  pos_le : h.pos.toNat ≤ h.end.toNat
  end_lt : h.end.toNat < 2 ^ 63

/-- **One call**: null exactly when the rounded block ends past `HEAP_END`, and then nothing
changes; otherwise the block at the rounded position, after which the position is the block's
end. `HEAP_START` and `HEAP_END` do not change. -/
theorem alloc_spec {h : Heap} (hi : h.Inv) (l : Layout) :
    ((h.alloc l).1 = 0 ↔
        h.end.toNat < Align.roundUp h.pos.toNat l.align.toNat + l.size.toNat) ∧
      ((h.alloc l).1 = 0 → (h.alloc l).2 = h) ∧
      ((h.alloc l).1 ≠ 0 → (h.alloc l).1.toNat = Align.roundUp h.pos.toNat l.align.toNat ∧
        (h.alloc l).2.pos.toNat = (h.alloc l).1.toNat + l.size.toNat) ∧
      (h.alloc l).2.start = h.start ∧ (h.alloc l).2.end = h.end := by
  obtain ⟨k, hk, -, hle⟩ := l.align_spec
  have hapos : 0 < l.align.toNat := hk ▸ Nat.two_pow_pos k
  obtain ⟨hup, hlt, -⟩ := Align.roundUp_spec hapos h.pos.toNat
  have hsize := l.size_le
  unfold ISIZE_MAX at hsize
  have hpos := hi.pos_le
  have hend := hi.end_lt
  have haligned := toNat_alignUp l (lt_of_le_of_lt hpos hend)
  -- the block's end does not wrap either
  have hnew : (alignUp h.pos l.align + l.size).toNat =
      Align.roundUp h.pos.toNat l.align.toNat + l.size.toNat := by
    rw [UInt64.toNat_add, haligned, Nat.mod_eq_of_lt (by omega)]
  have hstart : h.start ≠ 0 := fun h0 => by simpa [h0] using hi.start_pos
  -- the rounded position is at least `HEAP_START`, so the block is never null
  have hne : alignUp h.pos l.align ≠ 0 := fun h0 => by
    have h0' := congrArg UInt64.toNat h0
    rw [haligned, UInt64.toNat_zero] at h0'
    have := hi.start_pos
    have := hi.start_le
    omega
  unfold alloc
  rw [if_neg hstart]
  dsimp only
  by_cases hfit : alignUp h.pos l.align + l.size > h.end
  · rw [if_pos hfit]
    have hfit' := UInt64.lt_iff_toNat_lt.mp hfit
    rw [hnew] at hfit'
    exact ⟨iff_of_true rfl hfit', fun _ => rfl, fun h0 => absurd rfl h0, rfl, rfl⟩
  · rw [if_neg hfit]
    have hfit' : ¬ h.end.toNat < Align.roundUp h.pos.toNat l.align.toNat + l.size.toNat := by
      rw [← hnew]
      exact fun hlt' => hfit (UInt64.lt_iff_toNat_lt.mpr hlt')
    exact ⟨iff_of_false hne hfit', fun h0 => absurd h0 hne,
      fun _ => ⟨haligned, by rw [hnew, haligned]⟩, rfl, rfl⟩

/-- A call keeps `Inv`. -/
theorem Inv.alloc {h : Heap} (hi : h.Inv) (l : Layout) : (h.alloc l).2.Inv := by
  obtain ⟨hnull, hsame, hblock, hstart, hend⟩ := alloc_spec hi l
  by_cases h0 : (h.alloc l).1 = 0
  · rw [hsame h0]
    exact hi
  · obtain ⟨hres, hpos'⟩ := hblock h0
    have hfit := mt hnull.mpr h0
    obtain ⟨k, hk, -, -⟩ := l.align_spec
    have hup := (Align.roundUp_spec (hk ▸ Nat.two_pow_pos k) h.pos.toNat).1
    refine ⟨by rw [hstart]; exact hi.start_pos, ?_, ?_, by rw [hend]; exact hi.end_lt⟩
    · rw [hstart, hpos', hres]
      have := hi.start_le
      omega
    · rw [hend, hpos', hres]
      omega

/-! ### After `init` -/

/-- The heap on a run of pages that does not start at page `0` and ends by `MAX_PAGES`. -/
theorem ofBase_inv {start count : Nat} (hstart : 0 < start) (hend : start + count ≤ MAX_PAGES) :
    (ofBase (start * PAGE_SIZE) count).Inv := by
  have hb : (start + count) * PAGE_SIZE ≤ 2 ^ 30 := by
    unfold MAX_PAGES at hend
    unfold PAGE_SIZE
    omega
  have hsize : UInt64.size = 2 ^ 64 := rfl
  have hlo : (UInt64.ofNat (start * PAGE_SIZE)).toNat = start * PAGE_SIZE :=
    UInt64.toNat_ofNat_of_lt' (by rw [hsize]; unfold PAGE_SIZE at hb ⊢; omega)
  have hhi : (UInt64.ofNat (start * PAGE_SIZE + count * PAGE_SIZE)).toNat =
      start * PAGE_SIZE + count * PAGE_SIZE :=
    UInt64.toNat_ofNat_of_lt' (by rw [hsize]; unfold PAGE_SIZE at hb ⊢; omega)
  refine ⟨?_, ?_, ?_, ?_⟩
  · show 0 < (UInt64.ofNat (start * PAGE_SIZE)).toNat
    rw [hlo]
    exact Nat.mul_pos hstart (by decide)
  · exact Nat.le_refl _
  · show (UInt64.ofNat (start * PAGE_SIZE)).toNat ≤
      (UInt64.ofNat (start * PAGE_SIZE + count * PAGE_SIZE)).toNat
    rw [hlo, hhi]
    exact Nat.le_add_right _ _
  · show (UInt64.ofNat (start * PAGE_SIZE + count * PAGE_SIZE)).toNat < 2 ^ 63
    rw [hhi]
    unfold PAGE_SIZE at hb ⊢
    omega

/-- A run of at least two pages that `alloc_pages` hands out, from an allocator tracking at most
`MAX_PAGES` pages whose page `0` is taken, makes a heap that keeps `Inv`. -/
theorem ofBase_allocPages_inv {t : Pmm} {count a : Nat} (ht : t.total ≤ MAX_PAGES)
    (hzero : t.isPageFree 0 = false) (hcount : 2 ≤ count) (ha : (t.allocPages count).1 = some a) :
    (ofBase a count).Inv := by
  obtain ⟨start, rfl, hfree, hend⟩ := Pmm.allocPages_some hcount ha
  -- the run is free, so it does not start at the page that is taken
  have hpos : 0 < start := by
    rcases Nat.eq_zero_or_pos start with rfl | hpos
    · have h0 := Pmm.runFree_iff.mp hfree 0 (by omega)
      rw [Nat.add_zero, hzero] at h0
      cases h0
    · exact hpos
  exact ofBase_inv hpos (by omega)

/-- **The heap `init` makes keeps `Inv`**, from every reachable allocator whose page `0` is
taken. -/
theorem init_inv {s s' : Pmm} {h : Heap} (hs : s.IsReachable) (hzero : s.isPageFree 0 = false)
    (hinit : init s = some (h, s')) : h.Inv := by
  have htotal := hs.total_le
  unfold init at hinit
  dsimp only at hinit
  rcases h₁ : s.allocPages (HEAP_SIZE / PAGE_SIZE) with ⟨_ | heapBase, s₁⟩ <;>
    rw [h₁] at hinit <;> dsimp only at hinit
  · -- the second try, from what the first one left
    have ht₁ : s₁.total ≤ MAX_PAGES := by
      have := Pmm.total_allocPages (s := s) (HEAP_SIZE / PAGE_SIZE)
      rw [h₁] at this
      rwa [this]
    have hz₁ : s₁.isPageFree 0 = false := by
      cases hfz : s₁.isPageFree 0 with
      | false => rfl
      | true =>
          have h0 := Pmm.isPageFree_of_allocPages
            (show (s.allocPages (HEAP_SIZE / PAGE_SIZE)).2.isPageFree 0 = true by rw [h₁]; exact hfz)
          rw [hzero] at h0
          cases h0
    rcases h₂ : s₁.allocPages (HEAP_SIZE / PAGE_SIZE / 4) with ⟨_ | heapBase, s₂⟩ <;>
      rw [h₂] at hinit <;> dsimp only at hinit
    · cases hinit
    · cases hinit
      exact ofBase_allocPages_inv ht₁ hz₁ (by decide) (by rw [h₂])
  · cases hinit
    exact ofBase_allocPages_inv htotal hzero (by decide) (by rw [h₁])

/-! ### Runs -/

/-- A call of a run: the position it started from, its layout, and what it returned. -/
structure AllocCall where
  pos : UInt64
  layout : Layout
  result : UInt64

/-- A run of calls, in order. -/
def run (h : Heap) : List Layout → List AllocCall × Heap
  | [] => ([], h)
  | l :: ls =>
      let r := h.alloc l
      let rest := run r.2 ls
      (⟨h.pos, l, r.1⟩ :: rest.1, rest.2)

/-- What a call in a heap from `start` to `end` returns: null exactly when its rounded block does
not fit; otherwise an aligned block that lies between `start` and `end`. -/
def AllocCall.Sound (start «end» : UInt64) (c : AllocCall) : Prop :=
  (c.result = 0 ↔
      «end».toNat < Align.roundUp c.pos.toNat c.layout.align.toNat + c.layout.size.toNat) ∧
    (c.result ≠ 0 → c.result.toNat % c.layout.align.toNat = 0 ∧ start.toNat ≤ c.result.toNat ∧
      c.result.toNat + c.layout.size.toNat ≤ «end».toNat)

/-- The block of `c`, when there is one, ends where the block of `d`, when there is one, may
begin at the earliest. -/
def AllocCall.Before (c d : AllocCall) : Prop :=
  c.result ≠ 0 → d.result ≠ 0 → c.result.toNat + c.layout.size.toNat ≤ d.result.toNat

/-- Every call of a run from a heap that keeps `Inv` starts at or after the heap's position,
returns a block at or after its own, and is sound; each block ends before the later ones. -/
theorem run_sound {h : Heap} (hi : h.Inv) (layouts : List Layout) :
    (∀ c ∈ (h.run layouts).1, h.pos.toNat ≤ c.pos.toNat ∧
      (c.result ≠ 0 → c.pos.toNat ≤ c.result.toNat) ∧ c.Sound h.start h.end) ∧
    (h.run layouts).1.Pairwise AllocCall.Before := by
  induction layouts generalizing h with
  | nil => simp [run]
  | cons l ls ih =>
      obtain ⟨hnull, hsame, hblock, hstart, hend⟩ := alloc_spec hi l
      obtain ⟨hall, hpair⟩ := ih (hi.alloc l)
      rw [hstart, hend] at hall
      obtain ⟨k, hk, -, -⟩ := l.align_spec
      obtain ⟨hup, -, hmod⟩ := Align.roundUp_spec (hk ▸ Nat.two_pow_pos k) h.pos.toNat
      -- the position only moves up, to the end of the block handed out
      have hmono : h.pos.toNat ≤ (h.alloc l).2.pos.toNat := by
        by_cases h0 : (h.alloc l).1 = 0
        · rw [hsame h0]
        · obtain ⟨hres, hpos'⟩ := hblock h0
          omega
      have hhead : ((h.alloc l).1 ≠ 0 → h.pos.toNat ≤ (h.alloc l).1.toNat) ∧
          AllocCall.Sound h.start h.end ⟨h.pos, l, (h.alloc l).1⟩ := by
        refine ⟨fun h0 => (hblock h0).1 ▸ hup, hnull, fun h0 => ?_⟩
        dsimp only at h0 ⊢
        obtain ⟨hres, -⟩ := hblock h0
        have hfit := mt hnull.mpr h0
        have := hi.start_le
        exact ⟨hres ▸ hmod, by omega, by omega⟩
      simp only [run, List.mem_cons, List.pairwise_cons, forall_eq_or_imp]
      refine ⟨⟨⟨Nat.le_refl _, hhead⟩, fun c hc => ?_⟩, fun d hd h0 hd0 => ?_, hpair⟩
      · obtain ⟨hc₁, hc₂, hc₃⟩ := hall c hc
        exact ⟨hmono.trans hc₁, hc₂, hc₃⟩
      · obtain ⟨hd₁, hd₂, -⟩ := hall d hd
        have := (hblock h0).2
        have := hd₂ hd0
        show (h.alloc l).1.toNat + l.size.toNat ≤ d.result.toNat
        omega

/-- **The heap hands out disjoint aligned blocks**: after `init` from every reachable allocator
whose page `0` is taken, every sequence of calls returns null exactly when the rounded block does
not fit, and otherwise an aligned block within the heap that ends before any later block
begins. -/
theorem alloc_run {s s' : Pmm} {h : Heap} (hs : s.IsReachable) (hzero : s.isPageFree 0 = false)
    (hinit : init s = some (h, s')) (layouts : List Layout) :
    (∀ c ∈ (h.run layouts).1, c.Sound h.start h.end) ∧
      (h.run layouts).1.Pairwise AllocCall.Before := by
  obtain ⟨hall, hpair⟩ := run_sound (init_inv hs hzero hinit) layouts
  exact ⟨fun c hc => (hall c hc).2.2, hpair⟩

/-- The allocator after `init` of one conventional region of 258 pages from address `0`, with
the PML4 of `vm::init` taken from it. -/
def bootPmm : Pmm := (Pmm.init [⟨EFI_CONVENTIONAL_MEMORY, 0, 258⟩]).allocPage.2

set_option maxRecDepth 200000 in
theorem init_bootPmm_isSome : (init bootPmm).isSome := by decide +kernel

set_option maxRecDepth 200000 in
theorem alloc_run_bootPmm :
    (∀ c ∈ (((init bootPmm).get init_bootPmm_isSome).1.run
        [⟨8, 8, ⟨3, rfl⟩, by decide⟩, ⟨100, 4096, ⟨12, rfl⟩, by decide⟩]).1,
      c.Sound ((init bootPmm).get init_bootPmm_isSome).1.start
        ((init bootPmm).get init_bootPmm_isSome).1.end) ∧
    (((init bootPmm).get init_bootPmm_isSome).1.run
        [⟨8, 8, ⟨3, rfl⟩, by decide⟩, ⟨100, 4096, ⟨12, rfl⟩, by decide⟩]).1.Pairwise
      AllocCall.Before :=
  alloc_run ⟨_, Reachable.init.next .allocPage rfl⟩ (by decide +kernel)
    (Option.some_get init_bootPmm_isSome).symm _

end Heap

end Atom
