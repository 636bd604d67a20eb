import Mathlib.Data.Finset.Card
import Atom.Lib.Reach
import Atom.Kernel.Mm.Vm

/-!
# Memory — the physical page allocator

The bitmap allocator of `kernel/src/mm/pmm.rs`: a bit per page, set when the page is allocated
(`BITMAP`), the number of pages it tracks (`TOTAL_PAGES`) and its count of free pages
(`FREE_PAGES`).  `init` tracks the pages up to the end of the last descriptor of the UEFI memory
map, at most `MAX_PAGES`, and frees the pages of its conventional regions; the calls then
allocate and free pages one by one or in runs, and the allocator is a deterministic machine from
`init` (`IsReachable`).  `NEXT_FREE_HINT` and `LARGEST_FREE_RUN` are left out: no call reads
them.

The free pages are those below `TOTAL_PAGES` whose bit is clear (`freeSet`); freeing a page adds
it, allocating one removes it.

* `freeSet_card_le_free`: in every reachable state the counter is at least the number of free
  pages, and no page at or above `TOTAL_PAGES` is free.
* `freePage_beyondTotal`: the counter can be more.  `free_page` counts a page between
  `TOTAL_PAGES` and `MAX_PAGES` that it cannot free, here after an `init` of one region.
* `allocPages_firstFit`: when the counter covers the free pages, `alloc_pages` finds a run of
  free pages exactly when there is one, takes the lowest, allocates exactly its pages and counts
  them; when it finds none it changes nothing.
-/

namespace Atom

open Lib

/-- `MAX_PAGES`. -/
def MAX_PAGES : Nat := 256 * 1024

/-- `EFI_CONVENTIONAL_MEMORY`. -/
def EFI_CONVENTIONAL_MEMORY : UInt32 := 7

/-- What `init` reads of an `EfiMemoryDescriptor`. -/
structure MemoryDescriptor where
  typ : UInt32
  physicalStart : UInt64
  numberOfPages : UInt64
  deriving DecidableEq, Repr

namespace MemoryDescriptor

/-- `start_page`. -/
def startPage (d : MemoryDescriptor) : Nat := d.physicalStart.toNat / PAGE_SIZE

/-- `start_page.saturating_add(num_pages)`. -/
def endPage (d : MemoryDescriptor) : Nat := min (d.startPage + d.numberOfPages.toNat) (2 ^ 64 - 1)

end MemoryDescriptor

/-- The state of `pmm`. -/
structure Pmm where
  /-- `BITMAP`: whether each page is allocated (bit `page % 8` of byte `page / 8`). -/
  bitmap : Nat → Bool
  /-- `TOTAL_PAGES`. -/
  total : Nat
  /-- `FREE_PAGES`. -/
  free : Nat

namespace Pmm

/-- `is_page_free`: a page at or above `TOTAL_PAGES` is never free. -/
def isPageFree (s : Pmm) (page : Nat) : Bool :=
  if page ≥ s.total then false else !s.bitmap page

/-- `set_page_free`: a page at or above `TOTAL_PAGES` is left as it is. -/
def setPageFree (s : Pmm) (page : Nat) : Pmm :=
  if page ≥ s.total then s else { s with bitmap := Function.update s.bitmap page false }

/-- `set_page_allocated`: a page at or above `TOTAL_PAGES` is left as it is. -/
def setPageAllocated (s : Pmm) (page : Nat) : Pmm :=
  if page ≥ s.total then s else { s with bitmap := Function.update s.bitmap page true }

/-- The pages `init` frees for one descriptor: those of a conventional region below
`TOTAL_PAGES`. -/
def conventionalPages (total : Nat) (d : MemoryDescriptor) : List Nat :=
  if d.typ ≠ EFI_CONVENTIONAL_MEMORY ∨ d.startPage ≥ total then []
  else List.range' d.startPage (min d.endPage total - d.startPage)

/-- `init`: every page allocated and `TOTAL_PAGES` the end of the last descriptor, at most
`MAX_PAGES`; then each page of a conventional region is freed, and counted. -/
def init (descriptors : List MemoryDescriptor) : Pmm :=
  let trackedEndPage := descriptors.foldl (fun acc d => max acc d.endPage) 0
  let total := min trackedEndPage MAX_PAGES
  let pages := descriptors.flatMap (conventionalPages total)
  let s := pages.foldl setPageFree ⟨fun _ => true, total, 0⟩
  { s with free := pages.length }

/-- `alloc_page`: the first free page, unless the counter is at zero. -/
def allocPage (s : Pmm) : Option Nat × Pmm :=
  if s.free = 0 then (none, s)
  else
    match (List.range s.total).find? s.isPageFree with
    | some page => (some (page * PAGE_SIZE), { s.setPageAllocated page with free := s.free - 1 })
    | none => (none, s)

/-- `free_page`: the page of an aligned address below `MAX_PAGES` pages that is not free is set
free and counted. -/
def freePage (s : Pmm) (addr : Nat) : Pmm :=
  if addr % PAGE_SIZE ≠ 0 then s
  else if addr / PAGE_SIZE ≥ MAX_PAGES then s
  else if !s.isPageFree (addr / PAGE_SIZE) then
    { s.setPageFree (addr / PAGE_SIZE) with free := s.free + 1 }
  else s

/-- Whether the `count` pages from `start` on are free. -/
def runFree (s : Pmm) (start count : Nat) : Bool :=
  (List.range count).all fun i => s.isPageFree (start + i)

/-- `alloc_pages`: one page is `alloc_page`; otherwise the first run of `count` free pages that
starts at most `TOTAL_PAGES - count`. -/
def allocPages (s : Pmm) (count : Nat) : Option Nat × Pmm :=
  if count = 0 then (none, s)
  else if count = 1 then s.allocPage
  else if s.free < count then (none, s)
  -- `total.checked_sub(count)?`
  else if s.total < count then (none, s)
  else
    match (List.range (s.total - count + 1)).find? (fun start => s.runFree start count) with
    | some start =>
        (some (start * PAGE_SIZE),
          { (List.range count).foldl (fun s i => s.setPageAllocated (start + i)) s with
            free := s.free - count })
    | none => (none, s)

/-- `free_pages`: `free_page` at each page of the range; `usize` arithmetic wraps, as in a
release build. -/
def freePages (s : Pmm) (addr count : Nat) : Pmm :=
  (List.range count).foldl (fun s i => s.freePage ((addr + i * PAGE_SIZE) % 2 ^ 64)) s

/-- `alloc_page_zeroed`: `alloc_page`; the zeroing writes the page, not the allocator. -/
def allocPageZeroed (s : Pmm) : Option Nat × Pmm := s.allocPage

/-- `alloc_pages_zeroed`: `alloc_pages` of at least one page. -/
def allocPagesZeroed (s : Pmm) (count : Nat) : Option Nat × Pmm := s.allocPages (max count 1)

/-! ### Runs -/

/-- The calls of the allocator. -/
inductive Call where
  | allocPage
  | allocPages (count : Nat)
  | allocPageZeroed
  | allocPagesZeroed (count : Nat)
  | freePage (addr : Nat)
  | freePages (addr count : Nat)

/-- The allocator after a call, whatever the call returns. -/
def apply (s : Pmm) : Call → Pmm
  | .allocPage => s.allocPage.2
  | .allocPages count => (s.allocPages count).2
  | .allocPageZeroed => s.allocPageZeroed.2
  | .allocPagesZeroed count => (s.allocPagesZeroed count).2
  | .freePage addr => s.freePage addr
  | .freePages addr count => s.freePages addr count

/-- The states reachable by calls from `init` of some memory map. -/
def IsReachable (s : Pmm) : Prop := ∃ descriptors, Reachable (Det apply) (init descriptors) s

/-! ### The free pages -/

/-- The pages below `TOTAL_PAGES` whose bit is clear. -/
def freeSet (s : Pmm) : Finset Nat := (Finset.range s.total).filter fun p => s.bitmap p = false

variable {s : Pmm} {p : Nat}

theorem isPageFree_of_le (hp : s.total ≤ p) : s.isPageFree p = false := by
  simp [isPageFree, hp]

theorem mem_freeSet : p ∈ s.freeSet ↔ s.isPageFree p = true := by
  by_cases hp : s.total ≤ p
  · simp [freeSet, isPageFree, hp]
  · simp [freeSet, isPageFree, hp, Nat.lt_of_not_le hp]

@[simp] theorem setPageFree_total : (s.setPageFree p).total = s.total := by
  unfold setPageFree
  split_ifs <;> rfl

@[simp] theorem setPageAllocated_total : (s.setPageAllocated p).total = s.total := by
  unfold setPageAllocated
  split_ifs <;> rfl

theorem bitmap_setPageAllocated (hp : p < s.total) :
    (s.setPageAllocated p).bitmap = Function.update s.bitmap p true := by
  simp [setPageAllocated, Nat.not_le.mpr hp]

/-- Allocating a page takes it out of the free pages, wherever it lies. -/
theorem freeSet_setPageAllocated : (s.setPageAllocated p).freeSet = s.freeSet.erase p := by
  ext q
  rw [Finset.mem_erase, mem_freeSet, mem_freeSet]
  unfold setPageAllocated isPageFree
  -- an untracked page was not free, and allocating it changes nothing
  by_cases hq : q = p
  · subst hq
    by_cases hp : s.total ≤ q <;> simp [hp]
  · by_cases hp : s.total ≤ p <;> simp [hp, hq]

/-- Freeing a tracked page adds it to the free pages. -/
theorem freeSet_setPageFree (hp : p < s.total) : (s.setPageFree p).freeSet = insert p s.freeSet := by
  ext q
  rw [Finset.mem_insert, mem_freeSet, mem_freeSet]
  unfold setPageFree isPageFree
  by_cases hq : q = p
  · subst hq
    simp [Nat.not_le.mpr hp]
  · simp [Nat.not_le.mpr hp, hq]

/-- Freeing any page adds at most one free page. -/
theorem card_freeSet_setPageFree_le : (s.setPageFree p).freeSet.card ≤ s.freeSet.card + 1 := by
  by_cases hp : p < s.total
  · rw [freeSet_setPageFree hp]
    exact Finset.card_insert_le p s.freeSet
  · have hs : s.setPageFree p = s := by simp [setPageFree, Nat.le_of_not_lt hp]
    rw [hs]
    exact Nat.le_succ _

/-- Pages freed one by one add at most as many free pages as there are pages. -/
theorem card_freeSet_foldl_setPageFree_le (pages : List Nat) (s : Pmm) :
    (pages.foldl setPageFree s).freeSet.card ≤ s.freeSet.card + pages.length := by
  induction pages generalizing s with
  | nil => simp
  | cons p rest ih =>
    calc (rest.foldl setPageFree (s.setPageFree p)).freeSet.card
        ≤ (s.setPageFree p).freeSet.card + rest.length := ih _
      _ ≤ s.freeSet.card + 1 + rest.length := Nat.add_le_add_right card_freeSet_setPageFree_le _
      _ = s.freeSet.card + (p :: rest).length := by simp [Nat.add_assoc, Nat.add_comm 1]

@[simp] theorem total_foldl_setPageFree (pages : List Nat) (s : Pmm) :
    (pages.foldl setPageFree s).total = s.total := by
  induction pages generalizing s with
  | nil => rfl
  | cons p rest ih => simp [ih]

/-- Allocating the pages `start + i` takes all of them out of the free pages. -/
theorem freeSet_foldl_setPageAllocated (start : Nat) (l : List Nat) (s : Pmm) :
    (l.foldl (fun s i => s.setPageAllocated (start + i)) s).freeSet =
      s.freeSet \ (l.map (start + ·)).toFinset := by
  induction l generalizing s with
  | nil => simp
  | cons i rest ih =>
    rw [List.foldl_cons, ih, freeSet_setPageAllocated, Finset.erase_sdiff_comm, List.map_cons,
      List.toFinset_cons, Finset.sdiff_insert]

@[simp] theorem total_foldl_setPageAllocated (start : Nat) (l : List Nat) (s : Pmm) :
    (l.foldl (fun s i => s.setPageAllocated (start + i)) s).total = s.total := by
  induction l generalizing s with
  | nil => rfl
  | cons i rest ih => simp [ih]

/-! ### The counter covers the free pages -/

/-- `FREE_PAGES` is at least the number of free pages. -/
def Counted (s : Pmm) : Prop := s.freeSet.card ≤ s.free

theorem counted_init (descriptors : List MemoryDescriptor) : (init descriptors).Counted := by
  unfold init Counted
  dsimp only
  generalize min (descriptors.foldl (fun acc d => max acc d.endPage) 0) MAX_PAGES = total
  -- before the loop every bit is set, so no page is free
  have hempty : freeSet ⟨fun _ => true, total, 0⟩ = ∅ := by simp [freeSet]
  have h := card_freeSet_foldl_setPageFree_le (descriptors.flatMap (conventionalPages total))
    ⟨fun _ => true, total, 0⟩
  rw [hempty, Finset.card_empty, Nat.zero_add] at h
  exact h

theorem Counted.allocPage (h : s.Counted) : s.allocPage.2.Counted := by
  unfold Pmm.allocPage
  split_ifs with hzero
  · exact h
  split
  · rename_i page hfind
    have hfree : page ∈ s.freeSet := mem_freeSet.mpr (List.find?_some hfind)
    show (s.setPageAllocated page).freeSet.card ≤ s.free - 1
    rw [freeSet_setPageAllocated, Finset.card_erase_of_mem hfree]
    exact Nat.sub_le_sub_right h 1
  · exact h

theorem Counted.freePage (h : s.Counted) (addr : Nat) : (s.freePage addr).Counted := by
  unfold Pmm.freePage
  split_ifs
  · exact h
  · exact h
  · exact Nat.le_trans card_freeSet_setPageFree_le (Nat.add_le_add_right h 1)
  · exact h

theorem Counted.freePages (h : s.Counted) (addr count : Nat) : (s.freePages addr count).Counted := by
  unfold Pmm.freePages
  induction List.range count generalizing s with
  | nil => exact h
  | cons i rest ih => exact ih (h.freePage _)

/-- The run `alloc_pages` takes is `count` distinct free pages. -/
theorem card_run (start count : Nat) : ((List.range count).map (start + ·)).toFinset.card = count := by
  rw [List.toFinset_card_of_nodup ((List.nodup_range).map fun _ _ => Nat.add_left_cancel)]
  simp

theorem Counted.allocPages (h : s.Counted) (count : Nat) : (s.allocPages count).2.Counted := by
  unfold Pmm.allocPages
  split_ifs with h0 h1 hfree htotal
  · exact h
  · exact h.allocPage
  · exact h
  · exact h
  split
  · rename_i start hfind
    -- every page of the run is free, so the run leaves `count` fewer
    have hrun : s.runFree start count = true := List.find?_some (p := fun start => s.runFree start count) hfind
    have hsub : ((List.range count).map (start + ·)).toFinset ⊆ s.freeSet := by
      intro p hp
      obtain ⟨i, hi, rfl⟩ := List.mem_map.mp (List.mem_toFinset.mp hp)
      exact mem_freeSet.mpr (List.all_eq_true.mp hrun i hi)
    have hcard := Finset.card_sdiff_add_card_eq_card hsub
    rw [card_run] at hcard
    show ((List.range count).foldl (fun s i => s.setPageAllocated (start + i)) s).freeSet.card ≤
      s.free - count
    rw [freeSet_foldl_setPageAllocated]
    unfold Counted at h
    omega
  · exact h

theorem Counted.apply (h : s.Counted) : ∀ c : Call, (s.apply c).Counted
  | .allocPage => h.allocPage
  | .allocPages count => h.allocPages count
  | .allocPageZeroed => h.allocPage
  | .allocPagesZeroed count => h.allocPages (max count 1)
  | .freePage addr => h.freePage addr
  | .freePages addr count => h.freePages addr count

/-- **The counter covers the free pages**: in every reachable state `FREE_PAGES` is at least the
number of pages below `TOTAL_PAGES` whose bit is clear, and no page at or above `TOTAL_PAGES` is
free. -/
theorem freeSet_card_le_free (hs : s.IsReachable) :
    s.freeSet.card ≤ s.free ∧ ∀ p, s.total ≤ p → s.isPageFree p = false := by
  obtain ⟨descriptors, hs⟩ := hs
  refine ⟨?_, fun p hp => isPageFree_of_le hp⟩
  refine hs.induct (P := Counted) (counted_init descriptors) ?_
  rintro s c _ h rfl
  exact h.apply c

/-- A memory map of one conventional region of four pages at address zero. -/
def oneRegion : List MemoryDescriptor := [⟨EFI_CONVENTIONAL_MEMORY, 0, 4⟩]

/-- The allocator right after `init` of `oneRegion`. -/
theorem freeSet_card_le_free_oneRegion :
    (init oneRegion).IsReachable ∧ ((init oneRegion).freeSet.card ≤ (init oneRegion).free ∧
      ∀ p, (init oneRegion).total ≤ p → (init oneRegion).isPageFree p = false) :=
  ⟨⟨oneRegion, .init⟩, freeSet_card_le_free ⟨oneRegion, .init⟩⟩

/-! ### A page above `TOTAL_PAGES` -/

/-- After `init` of one region of four pages, `free_page` of the page right after it counts a
fifth free page; and a region listed twice is counted twice by `init`. -/
theorem freePage_beyondTotal :
    ((init oneRegion).apply (.freePage (4 * PAGE_SIZE))).IsReachable ∧
    ((init oneRegion).apply (.freePage (4 * PAGE_SIZE))).freeSet.card = 4 ∧
    ((init oneRegion).apply (.freePage (4 * PAGE_SIZE))).free = 5 ∧
    (init (oneRegion ++ oneRegion)).freeSet.card = 4 ∧ (init (oneRegion ++ oneRegion)).free = 8 :=
  ⟨⟨oneRegion, Reachable.init.next _ rfl⟩, by decide, by decide, by decide, by decide⟩

/-! ### First fit -/

theorem runFree_iff {start count : Nat} :
    s.runFree start count = true ↔ ∀ i < count, s.isPageFree (start + i) = true := by
  simp [runFree, List.all_eq_true]

/-- A free run lies below `TOTAL_PAGES`. -/
theorem runFree_end {start count : Nat} (hpos : 1 ≤ count) (h : s.runFree start count = true) :
    start + count ≤ s.total := by
  have hlast := runFree_iff.mp h (count - 1) (by omega)
  by_contra hgt
  rw [isPageFree_of_le (by omega)] at hlast
  cases hlast

/-- The pages of a free run are free pages. -/
theorem run_subset_freeSet {start count : Nat} (h : s.runFree start count = true) :
    ((List.range count).map (start + ·)).toFinset ⊆ s.freeSet := by
  intro p hp
  obtain ⟨i, hi, rfl⟩ := List.mem_map.mp (List.mem_toFinset.mp hp)
  exact mem_freeSet.mpr (runFree_iff.mp h i (List.mem_range.mp hi))

/-- There are at least as many free pages as a free run has. -/
theorem count_le_of_runFree {start count : Nat} (h : s.runFree start count = true) :
    count ≤ s.freeSet.card := by
  have hcard := Finset.card_le_card (run_subset_freeSet h)
  rwa [card_run] at hcard

/-- A run of one page is free when its page is. -/
theorem runFree_one : (fun start => s.runFree start 1) = s.isPageFree := by
  funext start
  simp [runFree]

/-- **One search for both calls**: when the counter covers the free pages, `alloc_page` and
`alloc_pages` take the first start of a free run among `0 ..= TOTAL_PAGES - count`, allocate its
pages and count them; the counter's own checks never refuse a run that exists. -/
theorem allocPages_eq (hc : s.Counted) {count : Nat} (hpos : 1 ≤ count) :
    s.allocPages count =
      match (List.range (s.total + 1 - count)).find? (fun start => s.runFree start count) with
      | some start => (some (start * PAGE_SIZE),
          { (List.range count).foldl (fun s i => s.setPageAllocated (start + i)) s with
            free := s.free - count })
      | none => (none, s) := by
  -- a run the search could find would be counted, so the counter's checks refuse none
  have hnone : s.free < count →
      (List.range (s.total + 1 - count)).find? (fun start => s.runFree start count) = none := by
    intro hlt
    refine List.find?_eq_none.mpr fun start _ hrun => ?_
    have := count_le_of_runFree hrun
    unfold Counted at hc
    omega
  unfold allocPages
  rw [if_neg (by omega)]
  by_cases hone : count = 1
  · subst hone
    rw [if_pos rfl, Nat.add_sub_cancel, runFree_one]
    unfold allocPage
    by_cases hzero : s.free = 0
    · rw [if_pos hzero]
      rw [← runFree_one, ← Nat.add_sub_cancel (n := s.total) (m := 1), hnone (by omega)]
    · rw [if_neg hzero]
      cases (List.range s.total).find? s.isPageFree <;> rfl
  · rw [if_neg hone]
    by_cases hfree : s.free < count
    · rw [if_pos hfree, hnone hfree]
    · rw [if_neg hfree]
      by_cases htotal : s.total < count
      · rw [if_pos htotal, show s.total + 1 - count = 0 by omega]
        rfl
      · rw [if_neg htotal, show s.total - count + 1 = s.total + 1 - count by omega]

/-- Allocating the pages of a run below `TOTAL_PAGES` sets exactly their bits. -/
theorem bitmap_foldl_setPageAllocated {start : Nat} :
    ∀ {count : Nat}, start + count ≤ s.total → ∀ p,
      ((List.range count).foldl (fun s i => s.setPageAllocated (start + i)) s).bitmap p =
        if start ≤ p ∧ p < start + count then true else s.bitmap p
  | 0, _, p => by simp
  | count + 1, hend, p => by
      rw [List.range_succ, List.foldl_append, List.foldl_cons, List.foldl_nil]
      have ih : ((List.range count).foldl (fun s i => s.setPageAllocated (start + i)) s).bitmap p =
          if start ≤ p ∧ p < start + count then true else s.bitmap p :=
        bitmap_foldl_setPageAllocated (by omega) p
      -- the last page is tracked, so its bit is set
      have htracked : start + count <
          ((List.range count).foldl (fun s i => s.setPageAllocated (start + i)) s).total := by
        rw [total_foldl_setPageAllocated]
        omega
      rw [bitmap_setPageAllocated htracked, Function.update_apply, ih]
      split_ifs <;> first | rfl | omega

/-- **`alloc_pages` is first fit**: for every allocator whose counter covers its free pages
and every count of at least one page, `alloc_pages` returns an address exactly when some run of
that many free pages lies below `TOTAL_PAGES`.  The address is that of the lowest such run; its
pages, and no other bit, are set, and the counter drops by the count.  When it returns nothing
the allocator is unchanged. -/
theorem allocPages_firstFit (hc : s.freeSet.card ≤ s.free) {count : Nat} (hpos : 1 ≤ count) :
    ((s.allocPages count).1.isSome ↔ ∃ start, start + count ≤ s.total ∧ s.runFree start count = true) ∧
    (∀ a, (s.allocPages count).1 = some a →
      a % PAGE_SIZE = 0 ∧ a / PAGE_SIZE + count ≤ s.total ∧ s.runFree (a / PAGE_SIZE) count = true ∧
      (∀ start < a / PAGE_SIZE, s.runFree start count = false) ∧
      (s.allocPages count).2.free + count = s.free ∧ (s.allocPages count).2.total = s.total ∧
      ∀ p, (s.allocPages count).2.bitmap p =
        if a / PAGE_SIZE ≤ p ∧ p < a / PAGE_SIZE + count then true else s.bitmap p) ∧
    ((s.allocPages count).1 = none → (s.allocPages count).2 = s) := by
  rw [allocPages_eq hc hpos]
  cases hf : (List.range (s.total + 1 - count)).find? (fun start => s.runFree start count) with
  | none =>
      -- no start up to `TOTAL_PAGES - count` begins a free run, and none beyond can
      have hnone := List.find?_eq_none.mp hf
      refine ⟨⟨?_, ?_⟩, ?_, fun _ => rfl⟩
      · intro h
        simp at h
      · rintro ⟨start, hend, hrun⟩
        exact absurd hrun (hnone start (List.mem_range.mpr (by omega)))
      · intro a h
        simp at h
  | some start =>
      obtain ⟨hrun, -, hmin⟩ := List.find?_range_eq_some.mp hf
      have hend := runFree_end hpos hrun
      have hle : count ≤ s.free := le_trans (count_le_of_runFree hrun) hc
      refine ⟨⟨fun _ => ⟨start, hend, hrun⟩, fun _ => rfl⟩, ?_, fun h => by cases h⟩
      rintro a ⟨⟩
      have hdiv : start * PAGE_SIZE / PAGE_SIZE = start := Nat.mul_div_cancel _ (by decide)
      rw [hdiv]
      refine ⟨Nat.mul_mod_left _ _, hend, hrun, fun st hst => by simpa using hmin st hst, ?_, ?_,
        bitmap_foldl_setPageAllocated hend⟩
      · show s.free - count + count = s.free
        omega
      · exact total_foldl_setPageAllocated _ _ _

/-- After `init` of one region of four pages, `alloc_pages(3)` takes pages `0` to `2`. -/
theorem allocPages_firstFit_oneRegion :
    (init oneRegion).freeSet.card ≤ (init oneRegion).free ∧ 1 ≤ 3 ∧
    ((init oneRegion).allocPages 3).1 = some 0 ∧
    (((init oneRegion).allocPages 3).1.isSome ↔
      ∃ start, start + 3 ≤ (init oneRegion).total ∧ (init oneRegion).runFree start 3 = true) :=
  ⟨by decide, by decide, by decide, (allocPages_firstFit (by decide) (by decide)).1⟩

/-! ### What allocations keep

`TOTAL_PAGES` is set by `init` alone, and an allocation only takes pages. `vm::init` takes its
PML4 with `alloc_page` before `heap::init` runs, so page `0`, the first page `alloc_page` looks
at, is no longer free by then. -/

theorem total_allocPage : s.allocPage.2.total = s.total := by
  unfold allocPage
  split_ifs
  · rfl
  · split <;> simp

theorem total_allocPages (count : Nat) : (s.allocPages count).2.total = s.total := by
  unfold allocPages
  split_ifs
  · rfl
  · exact total_allocPage
  · rfl
  · rfl
  · split <;> simp

theorem total_freePage (addr : Nat) : (s.freePage addr).total = s.total := by
  unfold freePage
  split_ifs <;> simp

theorem total_foldl_freePage (f : Nat → Nat) :
    ∀ (l : List Nat) (s : Pmm), (l.foldl (fun s i => s.freePage (f i)) s).total = s.total
  | [], _ => rfl
  | i :: l, s => by rw [List.foldl_cons, total_foldl_freePage f l, total_freePage]

theorem total_apply : ∀ c : Call, (s.apply c).total = s.total
  | .allocPage | .allocPageZeroed => total_allocPage
  | .allocPages _ | .allocPagesZeroed _ => total_allocPages _
  | .freePage addr => total_freePage addr
  | .freePages _ _ => total_foldl_freePage _ _ s

/-- A reachable allocator tracks at most `MAX_PAGES` pages. -/
theorem IsReachable.total_le (hs : s.IsReachable) : s.total ≤ MAX_PAGES := by
  obtain ⟨descriptors, hs⟩ := hs
  refine hs.induct (P := fun s => s.total ≤ MAX_PAGES) ?_ ?_
  · simp [init]
  · rintro s c _ h rfl
    rwa [total_apply]

theorem isPageFree_setPageAllocated (q : Nat) :
    (s.setPageAllocated q).isPageFree p = (s.isPageFree p && p != q) := by
  unfold setPageAllocated isPageFree
  by_cases hq : q ≥ s.total
  · by_cases hp : p ≥ s.total
    · simp [hq, hp]
    · have hpq : p ≠ q := by omega
      simp [hq, hp, hpq]
  · by_cases hpq : p = q
    · simp [hq, hpq]
    · simp [hq, hpq]

/-- Allocating pages frees none. -/
theorem isPageFree_of_foldl_setPageAllocated (start : Nat) :
    ∀ (l : List Nat) (s : Pmm),
      (l.foldl (fun s i => s.setPageAllocated (start + i)) s).isPageFree p = true →
        s.isPageFree p = true
  | [], _, h => h
  | i :: l, s, h => by
      have h' := isPageFree_of_foldl_setPageAllocated start l _ h
      rw [isPageFree_setPageAllocated, Bool.and_eq_true] at h'
      exact h'.1

theorem isPageFree_of_allocPage (h : s.allocPage.2.isPageFree p = true) : s.isPageFree p = true := by
  unfold allocPage at h
  split_ifs at h
  · exact h
  · split at h
    · rw [show ∀ (t : Pmm) n, ({ t with free := n } : Pmm).isPageFree p = t.isPageFree p from
        fun _ _ => rfl, isPageFree_setPageAllocated, Bool.and_eq_true] at h
      exact h.1
    · exact h

theorem isPageFree_of_allocPages {count : Nat} (h : (s.allocPages count).2.isPageFree p = true) :
    s.isPageFree p = true := by
  unfold allocPages at h
  split_ifs at h
  · exact h
  · exact isPageFree_of_allocPage h
  · exact h
  · exact h
  · split at h
    · exact isPageFree_of_foldl_setPageAllocated _ _ s h
    · exact h

/-- What `alloc_pages` of at least two pages returns: the address of a free run below
`TOTAL_PAGES`. -/
theorem allocPages_some {count a : Nat} (hcount : 2 ≤ count) (h : (s.allocPages count).1 = some a) :
    ∃ start, a = start * PAGE_SIZE ∧ s.runFree start count = true ∧ start + count ≤ s.total := by
  unfold allocPages at h
  rw [if_neg (by omega), if_neg (by omega)] at h
  split_ifs at h
  split at h
  · next start hfind =>
      obtain ⟨hrun, -, -⟩ := List.find?_range_eq_some.mp hfind
      cases h
      exact ⟨start, rfl, hrun, runFree_end (by omega) hrun⟩
  · cases h

end Pmm

end Atom
