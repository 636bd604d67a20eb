import Atom.Kernel.Mm.AddrSpace

/-!
# Memory — whom a page table belongs to

The paging state under a labelling of its page tables (`Vm.Tables`).  A label names the owner of
a table, the kernel or the user half of one address space, and its level, `0` for a PML4 and `3`
for a page table.  A followed entry of a labelled table points at a table one level down with the
same owner, except that the upper half of a space's PML4 points at the kernel's tables
(`Tag.child`).  The pages on the free list are distinct, unlabelled and addressable by an entry.

Each operation of `vm.rs` on a labelled root extends the labelling by the pages it takes from the
free list, and writes only entries of those pages or entries its walks read (`Vm.Grows`).  A walk
that reads none of those is untouched (`Vm.Grows.translate`).

* `walkTables_grows`, `mapPageInternal_grows`, `unmapPageInPml4_grows`: one page.
* `mapPages_grows`, `unmapPages_grows`: the loops over the pages of a range.
* `Tables.init`: `vm::init` leaves its tables labelled, with its PML4 the kernel's root.

The labelling is not part of the kernel's state: it is a witness that the tables are a forest
whose parts the operations keep apart.
-/

namespace Atom

open Lib

/-! ### Labels -/

/-- Whom a page table belongs to: the kernel, or the user half of an address space. -/
inductive Owner where
  | kernel
  | user (id : AddressSpaceId)
  deriving DecidableEq, Repr

/-- The label of a page table: its owner and its level, `0` for a PML4, `3` for a page table. -/
structure Tag where
  owner : Owner
  level : Nat
  deriving DecidableEq, Repr

namespace Tag

/-- The label of the table that entry `i` of a table labelled `g` points at: one level down, with
the same owner, except that the upper half of a space's PML4 points at the kernel's tables. -/
def child : Tag → Fin ENTRIES_PER_TABLE → Tag
  | ⟨.user a, 0⟩, i => if i.val < ENTRIES_PER_TABLE / 2 then ⟨.user a, 1⟩ else ⟨.kernel, 1⟩
  | ⟨o, ℓ⟩, _ => ⟨o, ℓ + 1⟩

/-- A table whose entries a walk follows: any but a page table. -/
def Inner (g : Tag) : Prop := g.level < 3

@[simp] theorem child_level (g : Tag) (i : Fin ENTRIES_PER_TABLE) :
    (g.child i).level = g.level + 1 := by
  obtain ⟨o, ℓ⟩ := g
  cases o with
  | kernel => cases ℓ <;> rfl
  | user a =>
      cases ℓ with
      | zero =>
          simp only [child]
          split_ifs <;> rfl
      | succ ℓ => rfl

theorem child_owner_of_pos {g : Tag} (hg : 0 < g.level) (i : Fin ENTRIES_PER_TABLE) :
    (g.child i).owner = g.owner := by
  obtain ⟨o, ℓ⟩ := g
  cases ℓ with
  | zero => cases hg
  | succ ℓ => cases o <;> rfl

theorem child_user_lower {a : AddressSpaceId} {i : Fin ENTRIES_PER_TABLE}
    (hi : i.val < ENTRIES_PER_TABLE / 2) : (Tag.child ⟨.user a, 0⟩ i).owner = .user a := by
  simp [child, hi]

theorem child_upper (o : Owner) {i : Fin ENTRIES_PER_TABLE} (hi : ENTRIES_PER_TABLE / 2 ≤ i.val) :
    (Tag.child ⟨o, 0⟩ i).owner = .kernel := by
  cases o with
  | kernel => rfl
  | user a => simp [child, Nat.not_lt.mpr hi]

theorem child_kernel (i : Fin ENTRIES_PER_TABLE) (ℓ : Nat) :
    (Tag.child ⟨.kernel, ℓ⟩ i).owner = .kernel := by
  cases ℓ <;> rfl

/-- A walk for `virt` from a PML4 reads the PML4 at the address's PML4 index, and then tables
further down, all with the owner of what the PML4 points at there. -/
theorem mem_labelsAlong_walkPath {g : Tag} {virt : Nat}
    {x : Tag × Fin ENTRIES_PER_TABLE}
    (hx : x ∈ Walk.labelsAlong child g (walkPath virt) (leafIndex virt)) :
    x = (g, (splitIndices virt).1) ∨
      (x.1.owner = (g.child (splitIndices virt).1).owner ∧ 0 < x.1.level) := by
  simp only [walkPath, Walk.labelsAlong, List.mem_cons, List.not_mem_nil, or_false] at hx
  rcases hx with rfl | rfl | rfl | rfl
  · exact .inl rfl
  · exact .inr ⟨rfl, by simp⟩
  · exact .inr ⟨child_owner_of_pos (by simp) _, by simp⟩
  · refine .inr ⟨?_, by simp⟩
    rw [child_owner_of_pos (by simp), child_owner_of_pos (by simp)]

end Tag

theorem guarded_walkPath {g : Tag} (hg : g.level = 0) (virt : Nat) :
    Walk.Guarded Tag.Inner Tag.child g (walkPath virt) := by
  simp [walkPath, Walk.Guarded, Tag.Inner, hg]

theorem labelEnd_walkPath_level {g : Tag} (hg : g.level = 0) (virt : Nat) :
    (Walk.labelEnd Tag.child g (walkPath virt)).level = 3 := by
  simp [Walk.labelEnd, walkPath, hg]

/-- The flags `ensure_table_user` gives a table it links in. -/
theorem PageTableEntry.next_set_table {p : Nat} (hp : Addressable p) (u : Bool) :
    PageTableEntry.next (PageTableEntry.set p
      (if u then PageFlags.PRESENT ||| PageFlags.WRITABLE ||| PageFlags.USER
        else PageFlags.PRESENT ||| PageFlags.WRITABLE)) = some p := by
  cases u <;> exact PageTableEntry.next_set hp (by decide) (by decide)

/-- The free pages a `pmm` bitmap can describe: distinct, each addressable by an entry. -/
def Vm.FreeList (free : List Nat) : Prop := free.Nodup ∧ ∀ p ∈ free, Addressable p

namespace Vm

/-! ### Labelled tables -/

/-- **The labelled page tables**: a followed entry of a labelled table points at the table
`Tag.child` labels; the free pages are distinct, unlabelled and addressable; so is every labelled
table. -/
structure Tables (own : Nat → Option Tag) (vm : Vm) : Prop where
  closed : Walk.Closed vm.mem PageTableEntry.next own Tag.Inner Tag.child
  nodup : vm.free.Nodup
  free : ∀ p ∈ vm.free, own p = none ∧ Addressable p
  addressable : ∀ t g, own t = some g → Addressable t

/-- `vm'` comes from `vm` by operations that keep the tables labelled and write only where `R`
allows: its tables are labelled by `own'`, which extends `own`; every entry that changed belongs
to a page `own` leaves unlabelled, or to a table whose label `R` allows at that index; the active
PML4 is kept. -/
structure Grows (own : Nat → Option Tag) (R : Tag → Fin ENTRIES_PER_TABLE → Prop) (vm vm' : Vm)
    (own' : Nat → Option Tag) : Prop where
  tables : Tables own' vm'
  mono : ∀ p g, own p = some g → own' p = some g
  writes : ∀ t i, vm'.mem t i ≠ vm.mem t i → own t = none ∨ ∃ g, own t = some g ∧ R g i
  active : vm'.activePml4 = vm.activePml4

variable {own own' own'' : Nat → Option Tag} {R R' : Tag → Fin ENTRIES_PER_TABLE → Prop}
  {vm vm' vm'' : Vm}

theorem Grows.refl (hT : Tables own vm) : Grows own R vm vm own :=
  ⟨hT, fun _ _ h => h, fun _ _ h => absurd rfl h, rfl⟩

theorem Grows.trans (h₁ : Grows own R vm vm' own') (h₂ : Grows own' R vm' vm'' own'') :
    Grows own R vm vm'' own'' := by
  refine ⟨h₂.tables, fun p g h => h₂.mono p g (h₁.mono p g h), fun t i hne => ?_,
    h₂.active.trans h₁.active⟩
  by_cases h' : vm'.mem t i = vm.mem t i
  · -- the change is the second step's: a page it found unlabelled was unlabelled before
    rcases h₂.writes t i (h' ▸ hne) with hn | ⟨g, hg, hR⟩
    · left
      cases ho : own t with
      | none => rfl
      | some g => rw [h₁.mono t g ho] at hn; cases hn
    · cases ho : own t with
      | none => exact .inl rfl
      | some g' =>
          rw [h₁.mono t g' ho, Option.some.injEq] at hg
          subst hg
          exact .inr ⟨_, rfl, hR⟩
  · exact h₁.writes t i h'

theorem Grows.weaken (h : Grows own R vm vm' own') (hR : ∀ g i, R g i → R' g i) :
    Grows own R' vm vm' own' := by
  refine ⟨h.tables, h.mono, fun t i hne => ?_, h.active⟩
  rcases h.writes t i hne with hn | ⟨g, hg, hr⟩
  · exact .inl hn
  · exact .inr ⟨g, hg, hR g i hr⟩

/-- **The frame of a labelled step**: a walk from a labelled PML4 none of whose labels and
indices `R` allows translates as before. -/
theorem Grows.translate (h : Grows own R vm vm' own') (hT : Tables own vm) {r : Nat} {g : Tag}
    (hr : own r = some g) (hg : g.level = 0) {virt : Nat}
    (hno : ∀ x ∈ Walk.labelsAlong Tag.child g (walkPath virt) (leafIndex virt), ¬ R x.1 x.2) :
    vm'.translate r virt = vm.translate r virt := by
  unfold Vm.translate
  congr 1
  refine Walk.entryAt_labelled hT.closed hr (guarded_walkPath hg virt) fun x hx t ht => ?_
  by_contra hne
  rcases h.writes t x.2 hne with hn | ⟨g', hg', hR⟩
  · rw [ht] at hn
    cases hn
  · rw [ht, Option.some.injEq] at hg'
    exact hno x hx (hg' ▸ hR)

/-! ### Allocating, labelling and writing -/

theorem allocPageZeroed_eq {p : Nat} (h : vm.allocPageZeroed = some (p, vm')) :
    ∃ rest, vm.free = p :: rest ∧
      vm' = { vm with mem := Function.update vm.mem p fun _ => 0, free := rest } := by
  unfold allocPageZeroed at h
  split at h
  · cases h
  · rename_i p' rest hfree
    simp only [Option.some.injEq, Prod.mk.injEq] at h
    obtain ⟨rfl, rfl⟩ := h
    exact ⟨rest, hfree, rfl⟩

/-- `pmm::alloc_page_zeroed` hands out an unlabelled addressable page, zeroed, and writes nothing
else. -/
theorem Tables.alloc (hT : Tables own vm) {p : Nat} (h : vm.allocPageZeroed = some (p, vm')) :
    own p = none ∧ Addressable p ∧ p ∉ vm'.free ∧ (∀ i, vm'.mem p i = 0) ∧
      Grows own R vm vm' own := by
  obtain ⟨rest, hfree, rfl⟩ := allocPageZeroed_eq h
  have hp := hT.free p (by simp [hfree])
  have hnd : (p :: rest).Nodup := hfree ▸ hT.nodup
  refine ⟨hp.1, hp.2, (List.nodup_cons.mp hnd).1, fun i => by simp, ?_⟩
  -- only the fresh page changed, and it is unlabelled
  have hchanged : ∀ t i, (Function.update vm.mem p fun _ => (0 : UInt64)) t i ≠ vm.mem t i →
      t = p := by
    intro t i hne
    by_contra htp
    exact hne (by rw [Function.update_of_ne htp])
  refine ⟨⟨?_, (List.nodup_cons.mp hnd).2, fun q hq => hT.free q (by simp [hfree, hq]),
    hT.addressable⟩, fun _ _ h => h, fun t i hne => .inl (hchanged t i hne ▸ hp.1), rfl⟩
  refine hT.closed.of_agree fun t g ht _ => ?_
  have htp : t ≠ p := by
    rintro rfl
    rw [hp.1] at ht
    cases ht
  exact Function.update_of_ne htp _ _

/-- Labelling an unlabelled page taken off the free list, whose followed entries point where its
label says. -/
theorem Grows.label (h : Grows own R vm vm' own') {p : Nat} {b : Tag} (hp : own' p = none)
    (hpf : p ∉ vm'.free) (hpa : Addressable p)
    (hb : ∀ i t', b.Inner → PageTableEntry.next (vm'.mem p i) = some t' → own' t' = some (b.child i)) :
    Grows own R vm vm' (Function.update own' p (some b)) := by
  have hne : ∀ q g, own' q = some g → q ≠ p := by
    rintro q g hq rfl
    rw [hp] at hq
    cases hq
  refine ⟨⟨h.tables.closed.label hp hb, h.tables.nodup, fun q hq => ?_, fun t g ht => ?_⟩,
    fun q g hq => ?_, h.writes, h.active⟩
  · have hqp : q ≠ p := fun he => hpf (he ▸ hq)
    rw [Function.update_of_ne hqp]
    exact h.tables.free q hq
  · by_cases htp : t = p
    · exact htp ▸ hpa
    · rw [Function.update_of_ne htp] at ht
      exact h.tables.addressable t g ht
  · have hq' := h.mono q g hq
    rw [Function.update_of_ne (hne q g hq')]
    exact hq'

theorem write_apply (vm : Vm) (t : Nat) (i : Fin ENTRIES_PER_TABLE) (e : UInt64) (t' : Nat)
    (i' : Fin ENTRIES_PER_TABLE) :
    (vm.write t i e).mem t' i' = if t' = t ∧ i' = i then e else vm.mem t' i' :=
  Walk.write_apply t i e t' i'

/-- A write of one entry keeps the tables labelled when the entry points where its table's label
says, and it writes where `R` allows. -/
theorem Tables.grows_write (hT : Tables own vm) {t : Nat} {i : Fin ENTRIES_PER_TABLE} {e : UInt64}
    (he : ∀ b t', own t = some b → b.Inner → PageTableEntry.next e = some t' →
      own t' = some (b.child i))
    (hR : own t = none ∨ ∃ g, own t = some g ∧ R g i) : Grows own R vm (vm.write t i e) own := by
  refine ⟨⟨hT.closed.write he, hT.nodup, hT.free, hT.addressable⟩, fun _ _ h => h,
    fun t' i' hne => ?_, rfl⟩
  rw [write_apply] at hne
  split_ifs at hne with hw
  · obtain ⟨rfl, rfl⟩ := hw
    exact hR
  · exact absurd rfl hne

/-! ### The walks -/

section Walks

variable {t : Nat} {g : Tag}

/-- **`ensure_table_user` keeps the tables labelled**: from a labelled table whose entries are
followed, it ends at the table its label says, writing only the entry it reads and a fresh
page. -/
theorem ensureTableUser_grows (hT : Tables own vm) (ht : own t = some g) (hg : g.Inner)
    {i : Fin ENTRIES_PER_TABLE} {create u : Bool} {t' : Nat}
    (h : vm.ensureTableUser t i create u = .ok (t', vm')) :
    ∃ own', Grows own (fun g' j => g' = g ∧ j = i) vm vm' own' ∧ own' t' = some (g.child i) := by
  dsimp only [ensureTableUser] at h
  by_cases hp : PageTableEntry.isPresent (vm.mem t i) = true
  · -- a present entry is followed, to the table its label says
    have hnext : PageTableEntry.next (vm.mem t i) = some (PageTableEntry.addr (vm.mem t i)) := by
      simp [PageTableEntry.next, hp]
    have hchild := hT.closed t g i _ ht hg hnext
    rw [if_pos hp] at h
    split_ifs at h
    · -- the `USER` bit does not move the entry
      simp only [Except.ok.injEq, Prod.mk.injEq] at h
      obtain ⟨rfl, rfl⟩ := h
      refine ⟨own, hT.grows_write (fun b t'' hb _ hn => ?_) (.inr ⟨g, ht, rfl, rfl⟩), hchild⟩
      rw [ht, Option.some.injEq] at hb
      subst hb
      rw [PageTableEntry.next_or_user] at hn
      exact hT.closed t g i t'' ht hg hn
    · simp only [Except.ok.injEq, Prod.mk.injEq] at h
      obtain ⟨rfl, rfl⟩ := h
      exact ⟨own, .refl hT, hchild⟩
  · rw [if_neg hp] at h
    by_cases hc : (!create) = true
    · rw [if_pos hc] at h
      cases h
    rw [if_neg hc] at h
    split at h
    · cases h
    · rename_i phys vm₁ halloc
      simp only [Except.ok.injEq, Prod.mk.injEq] at h
      obtain ⟨rfl, rfl⟩ := h
      -- a fresh table, labelled one level down, is linked in
      obtain ⟨hfresh, hpa, hpf, hzero, hg₁⟩ := hT.alloc (R := fun g' j => g' = g ∧ j = i) halloc
      have hg₂ := hg₁.label (b := g.child i) hfresh hpf hpa fun j t'' _ hn => by
        rw [hzero j, PageTableEntry.next_zero] at hn
        cases hn
      have htp : t ≠ phys := by
        rintro rfl
        rw [hfresh] at ht
        cases ht
      have ht₂ : Function.update own phys (some (g.child i)) t = some g := by
        rw [Function.update_of_ne htp, ht]
      refine ⟨_, hg₂.trans (hg₂.tables.grows_write (fun b t'' hb _ hn => ?_)
        (.inr ⟨g, ht₂, rfl, rfl⟩)), by simp⟩
      rw [ht₂, Option.some.injEq] at hb
      subst hb
      rw [PageTableEntry.next_set_table hpa, Option.some.injEq] at hn
      subst hn
      simp

/-- **The walk of `walk_to_entry_with_root_user` keeps the tables labelled**: from a labelled
table, it writes only entries it reads, at the labels and indices `labelsAlong` lists, and fresh
pages; a walk that gets through ends at the table `labelEnd` labels. -/
theorem walkTables_grows {create u : Bool} (j : Fin ENTRIES_PER_TABLE) :
    ∀ {path : List (Fin ENTRIES_PER_TABLE)} {own : Nat → Option Tag} {vm vm' : Vm} {t : Nat}
      {g : Tag} {res : Except VmError Nat}, Tables own vm → own t = some g →
      Walk.Guarded Tag.Inner Tag.child g path → walkTables create u vm t path = (res, vm') →
      ∃ own', Grows own (fun g' i => (g', i) ∈ Walk.labelsAlong Tag.child g path j) vm vm' own' ∧
        ∀ pt, res = .ok pt → own' pt = some (Walk.labelEnd Tag.child g path)
  | [], own, vm, vm', t, g, res, hT, ht, _, h => by
      simp only [walkTables, Prod.mk.injEq] at h
      obtain ⟨rfl, rfl⟩ := h
      refine ⟨own, .refl hT, fun pt hpt => ?_⟩
      cases hpt
      exact ht
  | i :: path, own, vm, vm', t, g, res, hT, ht, hg, h => by
      obtain ⟨hG, hg⟩ := hg
      simp only [walkTables] at h
      split at h
      · simp only [Prod.mk.injEq] at h
        obtain ⟨rfl, rfl⟩ := h
        exact ⟨own, .refl hT, fun _ h => by cases h⟩
      · rename_i t' vm₁ hstep
        obtain ⟨own₁, hg₁, ht'⟩ := ensureTableUser_grows hT ht hG hstep
        -- the rest of the walk starts at the table one level down
        obtain ⟨own₂, hg₂, hend⟩ := walkTables_grows j hg₁.tables ht' hg h
        refine ⟨own₂, (hg₁.weaken ?_).trans (hg₂.weaken ?_), hend⟩
        · rintro g' i' ⟨rfl, rfl⟩
          exact List.mem_cons_self
        · intro g' i' hx
          exact List.mem_cons_of_mem _ hx

end Walks

/-! ### One page -/

section Page

variable {r : Nat} {g : Tag} {virt : Nat}

/-- The labels and indices a walk for `virt` from a root labelled `g` reads. -/
abbrev walkLabels (g : Tag) (virt : Nat) : Tag → Fin ENTRIES_PER_TABLE → Prop :=
  fun g' i => (g', i) ∈ Walk.labelsAlong Tag.child g (walkPath virt) (leafIndex virt)

/-- `walk_to_entry_with_root_user` from a labelled PML4: a walk that gets through ends at the
leaf index of `virt` in a table labelled `labelEnd`. -/
theorem walkToEntryWithRootUser_grows (hT : Tables own vm) (hr : own r = some g) (hg : g.level = 0)
    {create u : Bool} {res : Except VmError (Nat × Fin ENTRIES_PER_TABLE)}
    (h : vm.walkToEntryWithRootUser r virt create u = (res, vm')) :
    ∃ own', Grows own (walkLabels g virt) vm vm' own' ∧
      ∀ pt i, res = .ok (pt, i) → i = leafIndex virt ∧
        own' pt = some (Walk.labelEnd Tag.child g (walkPath virt)) := by
  unfold walkToEntryWithRootUser at h
  split at h
  · rename_i pt vm₁ hw
    obtain ⟨own₁, hg₁, hend⟩ := walkTables_grows (leafIndex virt) hT hr (guarded_walkPath hg virt) hw
    obtain ⟨rfl, rfl⟩ := Prod.mk.inj h
    refine ⟨own₁, hg₁, fun pt' i hpt => ?_⟩
    simp only [Except.ok.injEq, Prod.mk.injEq] at hpt
    obtain ⟨rfl, rfl⟩ := hpt
    exact ⟨rfl, hend pt rfl⟩
  · rename_i e vm₁ hw
    obtain ⟨own₁, hg₁, -⟩ := walkTables_grows (leafIndex virt) hT hr (guarded_walkPath hg virt) hw
    obtain ⟨rfl, rfl⟩ := Prod.mk.inj h
    exact ⟨own₁, hg₁, fun _ _ h => by cases h⟩

/-- **`map_page_internal` keeps the tables labelled**, writing only entries its walk for `virt`
reads, its leaf, and fresh pages. -/
theorem mapPageInternal_grows (hT : Tables own vm) (hr : own r = some g) (hg : g.level = 0)
    {phys : Nat} {flags : UInt64} {res : Except VmError Unit}
    (h : vm.mapPageInternal r virt phys flags = (res, vm')) :
    ∃ own', Grows own (walkLabels g virt) vm vm' own' := by
  unfold mapPageInternal at h
  split_ifs at h
  · obtain ⟨-, rfl⟩ := Prod.mk.inj h
    exact ⟨own, .refl hT⟩
  · dsimp only at h
    split at h
    · rename_i e vm₁ hw
      obtain ⟨own₁, hg₁, -⟩ := walkToEntryWithRootUser_grows hT hr hg hw
      obtain ⟨-, rfl⟩ := Prod.mk.inj h
      exact ⟨own₁, hg₁⟩
    · rename_i pt i vm₁ hw
      obtain ⟨own₁, hg₁, hend⟩ := walkToEntryWithRootUser_grows hT hr hg hw
      obtain ⟨rfl, hpt⟩ := hend pt i rfl
      split_ifs at h
      · obtain ⟨-, rfl⟩ := Prod.mk.inj h
        exact ⟨own₁, hg₁⟩
      · obtain ⟨-, rfl⟩ := Prod.mk.inj h
        -- the leaf is in a page table, whose entries no walk follows
        refine ⟨own₁, hg₁.trans (hg₁.tables.grows_write (fun b _ hb hin _ => ?_)
          (.inr ⟨_, hpt, Walk.labelEnd_mem_labelsAlong _ _ _⟩))⟩
        rw [hpt, Option.some.injEq] at hb
        have hl := labelEnd_walkPath_level hg virt
        rw [hb] at hl
        exact absurd hin (by simp [Tag.Inner, hl])

theorem mapPageInPml4_grows (hT : Tables own vm) (hr : own r = some g) (hg : g.level = 0)
    {phys : Nat} {flags : UInt64} {res : Except VmError Unit}
    (h : vm.mapPageInPml4 r virt phys flags = (res, vm')) :
    ∃ own', Grows own (walkLabels g virt) vm vm' own' := by
  unfold mapPageInPml4 at h
  split_ifs at h
  · simp only [Prod.mk.injEq] at h
    obtain ⟨-, rfl⟩ := h
    exact ⟨own, .refl hT⟩
  · simp only [Prod.mk.injEq] at h
    obtain ⟨-, rfl⟩ := h
    exact ⟨own, .refl hT⟩
  · exact mapPageInternal_grows hT hr hg h

/-- A failed `unmap_page_in_pml4` writes nothing. -/
theorem unmapPageInPml4_error {res : Except VmError Unit} (hres : res ≠ .ok ())
    (h : vm.unmapPageInPml4 r virt = (res, vm')) : vm' = vm := by
  unfold unmapPageInPml4 at h
  split_ifs at h
  · exact (Prod.mk.inj h).2.symm
  · exact (Prod.mk.inj h).2.symm
  · rw [walkToEntryWithRootUser_read] at h
    cases hl : vm.leafOf r virt with
    | none =>
        rw [hl] at h
        exact (Prod.mk.inj h).2.symm
    | some loc =>
        rw [hl] at h
        dsimp only [Option.elim] at h
        split_ifs at h
        · exact (Prod.mk.inj h).2.symm
        · exact absurd (Prod.mk.inj h).1.symm hres

/-- **`unmap_page_in_pml4` keeps the tables labelled**, writing only the leaf of its walk. -/
theorem unmapPageInPml4_grows (hT : Tables own vm) (hr : own r = some g) (hg : g.level = 0)
    {res : Except VmError Unit} (h : vm.unmapPageInPml4 r virt = (res, vm')) :
    Grows own (walkLabels g virt) vm vm' own := by
  by_cases hres : res = .ok ()
  · subst hres
    obtain ⟨pt, i, hleaf, rfl⟩ := unmapPageInPml4_of_ok h
    simp only [leafOf, Walk.leafAt, Option.map_eq_some_iff, Prod.mk.injEq] at hleaf
    obtain ⟨pt', htab, rfl, rfl⟩ := hleaf
    have hpt := Walk.tableAt_labelled hT.closed hr (guarded_walkPath hg virt) htab
    refine hT.grows_write (fun _ _ _ _ hn => ?_) (.inr ⟨_, hpt, Walk.labelEnd_mem_labelsAlong _ _ _⟩)
    rw [PageTableEntry.next_zero] at hn
    cases hn
  · rw [unmapPageInPml4_error hres h]
    exact .refl hT

end Page

/-! ### The loops over a range -/

section Loops

variable {r : Nat} {g : Tag}

/-- **The loop of `map_region` keeps the tables labelled**, writing only where `R` allows the
walks of its pages. -/
theorem mapPages_grows (hg : g.level = 0) :
    ∀ {pages : List (Nat × Nat × UInt64)} {own : Nat → Option Tag} {vm vm' : Vm}
      {res : Except VmError Unit} {n : Nat}, Tables own vm → own r = some g →
      (∀ x ∈ pages, ∀ g' i, walkLabels g x.1 g' i → R g' i) →
      vm.mapPages r pages = (res, n, vm') → ∃ own', Grows own R vm vm' own'
  | [], own, vm, vm', res, n, hT, _, _, h => by
      simp only [mapPages, Prod.mk.injEq] at h
      obtain ⟨-, -, rfl⟩ := h
      exact ⟨own, .refl hT⟩
  | (virt, phys, flags) :: pages, own, vm, vm', res, n, hT, hr, hR, h => by
      have hhead : ∀ g' i, walkLabels g virt g' i → R g' i := hR (virt, phys, flags) List.mem_cons_self
      simp only [mapPages] at h
      split at h
      · simp only [Prod.mk.injEq] at h
        obtain ⟨-, -, rfl⟩ := h
        rename_i vm₁ _ hpage
        obtain ⟨own₁, hg₁⟩ := mapPageInPml4_grows hT hr hg hpage
        exact ⟨own₁, hg₁.weaken hhead⟩
      · rename_i vm₁ hpage
        obtain ⟨own₁, hg₁⟩ := mapPageInPml4_grows hT hr hg hpage
        generalize hrest : mapPages vm₁ r pages = rest at h
        obtain ⟨res₂, n₂, vm₂⟩ := rest
        simp only [Prod.mk.injEq] at h
        obtain ⟨-, -, rfl⟩ := h
        -- the root keeps its label, and the rest of the pages go on from `vm₁`
        obtain ⟨own₂, hg₂⟩ := mapPages_grows hg hg₁.tables (hg₁.mono r g hr)
          (fun x hx => hR x (List.mem_cons_of_mem _ hx)) hrest
        exact ⟨own₂, (hg₁.weaken hhead).trans hg₂⟩

/-- **The loops that unmap a range keep the tables labelled**, writing only where `R` allows the
walks of its pages. -/
theorem unmapPages_grows (hr : own r = some g) (hg : g.level = 0) :
    ∀ {virts : List Nat} {vm vm' : Vm} {n : Nat}, Tables own vm →
      (∀ v ∈ virts, ∀ g' i, walkLabels g v g' i → R g' i) →
      vm.unmapPages r virts = (n, vm') → Grows own R vm vm' own
  | [], vm, vm', n, hT, _, h => by
      simp only [unmapPages, Prod.mk.injEq] at h
      obtain ⟨-, rfl⟩ := h
      exact .refl hT
  | virt :: virts, vm, vm', n, hT, hR, h => by
      have hhead : ∀ g' i, walkLabels g virt g' i → R g' i := hR virt List.mem_cons_self
      have htail := fun v hv => hR v (List.mem_cons_of_mem _ hv)
      simp only [unmapPages] at h
      split at h
      · rename_i vm₁ hpage
        have hg₁ := (unmapPageInPml4_grows hT hr hg hpage).weaken hhead
        exact hg₁.trans (unmapPages_grows hr hg hg₁.tables htail h)
      · rename_i vm₁ hpage
        have hg₁ := (unmapPageInPml4_grows hT hr hg hpage).weaken hhead
        generalize hrest : unmapPages vm₁ r virts = rest at h
        obtain ⟨n₂, vm₂⟩ := rest
        simp only [Prod.mk.injEq] at h
        obtain ⟨-, rfl⟩ := h
        exact hg₁.trans (unmapPages_grows hr hg hg₁.tables htail hrest)

end Loops

/-! ### Freeing and cloning -/

@[simp] theorem freePage_mem (vm : Vm) (p : Nat) : (vm.freePage p).mem = vm.mem := by
  unfold Vm.freePage
  split_ifs <;> rfl

@[simp] theorem freePage_activePml4 (vm : Vm) (p : Nat) :
    (vm.freePage p).activePml4 = vm.activePml4 := by
  unfold Vm.freePage
  split_ifs <;> rfl

/-- `pmm::free_page` of an unlabelled addressable page keeps the tables labelled. -/
theorem Tables.freePage (hT : Tables own vm) {p : Nat} (hp : own p = none) (hpa : Addressable p) :
    Tables own (vm.freePage p) := by
  unfold Vm.freePage
  split_ifs with h
  · refine ⟨hT.closed, ?_, fun q hq => ?_, hT.addressable⟩
    · exact hT.nodup.append (List.nodup_singleton p) (List.disjoint_singleton.mpr h.2)
    · rcases List.mem_append.mp hq with hq | hq
      · exact hT.free q hq
      · rw [List.mem_singleton.mp hq]
        exact ⟨hp, hpa⟩
  · exact hT

/-- `pmm::free_page` of a PML4 takes its label off: no table points at a PML4. -/
theorem Tables.freeRoot (hT : Tables own vm) {p : Nat} {o : Owner} (hp : own p = some ⟨o, 0⟩) :
    Tables (Function.update own p none) (vm.freePage p) := by
  have hne : ∀ q g, own q = some g → q ∈ vm.free → False := fun q g hq hf => by
    rw [(hT.free q hf).1] at hq
    cases hq
  have hT' : Tables (Function.update own p none) vm := by
    refine ⟨hT.closed.unlabel fun c hc b i h => ?_, hT.nodup, fun q hq => ?_, fun t g ht => ?_⟩
    · -- a child is one level down, and a PML4 is at level `0`
      rw [hp, Option.some.injEq] at hc
      subst hc
      have hl := congrArg Tag.level h
      simp at hl
    · have hqp : q ≠ p := by
        rintro rfl
        exact hne q _ hp hq
      rw [Function.update_of_ne hqp]
      exact hT.free q hq
    · have htp : t ≠ p := by
        rintro rfl
        simp at ht
      rw [Function.update_of_ne htp] at ht
      exact hT.addressable t g ht
  exact hT'.freePage (by simp) (hT.addressable p _ hp)

theorem cloneKernelMappings_error {dst : Nat} {e : VmError}
    (h : vm.cloneKernelMappings dst = (.error e, vm')) : vm' = vm := by
  unfold cloneKernelMappings at h
  split_ifs at h
  · exact (Prod.mk.inj h).2.symm
  · exact (Prod.mk.inj h).2.symm
  · cases (Prod.mk.inj h).1

theorem cloneKernelMappings_ok {dst : Nat} (h : vm.cloneKernelMappings dst = (.ok (), vm')) :
    vm' = { vm with
      mem := Function.update vm.mem dst fun idx =>
        if idx.val < ENTRIES_PER_TABLE / 2 then 0 else vm.mem vm.activePml4 idx } := by
  unfold cloneKernelMappings at h
  split_ifs at h
  · cases h
  · cases h
  · exact (Prod.mk.inj h).2.symm

/-- **`clone_kernel_mappings` roots a new user half**: a fresh page it fills becomes the PML4 of
the space `id`, whose upper half points at the kernel's tables. -/
theorem Tables.clone (hT : Tables own vm) {p : Nat} (hp : own p = none) (hpf : p ∉ vm.free)
    (hpa : Addressable p) (hact : own vm.activePml4 = some ⟨.kernel, 0⟩) (id : AddressSpaceId)
    (h : vm.cloneKernelMappings p = (.ok (), vm')) :
    Grows own R vm vm' (Function.update own p (some ⟨.user id, 0⟩)) := by
  have hap : vm.activePml4 ≠ p := by
    rintro he
    rw [he, hp] at hact
    cases hact
  rw [cloneKernelMappings_ok h]
  -- first the page is filled, while still unlabelled
  have hfill : Grows own R vm { vm with mem := Function.update vm.mem p fun idx =>
      if idx.val < ENTRIES_PER_TABLE / 2 then 0 else vm.mem vm.activePml4 idx } own := by
    refine ⟨⟨hT.closed.of_agree fun t g ht _ => ?_, hT.nodup, hT.free, hT.addressable⟩,
      fun _ _ h => h, fun t i hne => .inl ?_, rfl⟩
    · have htp : t ≠ p := by
        rintro rfl
        rw [hp] at ht
        cases ht
      exact Function.update_of_ne htp _ _
    · by_contra hne'
      have htp : t ≠ p := by
        rintro rfl
        exact hne' hp
      exact hne (by simp [Function.update_of_ne htp])
  refine hfill.label hp hpf hpa fun i t' _ hn => ?_
  simp only [Function.update_self] at hn
  split_ifs at hn with hi
  · rw [PageTableEntry.next_zero] at hn
    cases hn
  · -- the upper half: the active PML4's entry, which points at a kernel table one level down
    have hk := hT.closed _ _ i t' hact (by simp [Tag.Inner]) hn
    have hup : Tag.child ⟨.user id, 0⟩ i = ⟨.kernel, 1⟩ := by simp [Tag.child, hi]
    rw [hup]
    exact hk

/-! ### Boot -/

/-- The paging state has its tables labelled, with `p` the kernel's root and the active PML4. -/
def KernelRooted (p : Nat) (vm : Vm) : Prop :=
  ∃ own, Tables own vm ∧ own p = some ⟨.kernel, 0⟩ ∧ vm.activePml4 = p

theorem KernelRooted.mapPageInternal {p : Nat} (h : KernelRooted p vm) (virt phys : Nat)
    (flags : UInt64) : KernelRooted p (vm.mapPageInternal p virt phys flags).2 := by
  obtain ⟨own, hT, hp, hact⟩ := h
  generalize hm : vm.mapPageInternal p virt phys flags = out
  obtain ⟨res, vm'⟩ := out
  obtain ⟨own', hg⟩ := mapPageInternal_grows hT hp rfl hm
  exact ⟨own', hg.tables, hg.mono p _ hp, hg.active.trans hact⟩

theorem KernelRooted.foldl {α : Type*} {p : Nat} {f : Vm → α → Vm}
    (hf : ∀ vm x, KernelRooted p vm → KernelRooted p (f vm x)) :
    ∀ (l : List α) {vm : Vm}, KernelRooted p vm → KernelRooted p (l.foldl f vm)
  | [], _, h => h
  | x :: l, _, h => KernelRooted.foldl hf l (hf _ x h)

/-- **`vm::init` labels its tables as the kernel's**: over a free list `pmm` can hold, the paging
state it leaves has its tables labelled, with its PML4 the kernel's root. -/
theorem Tables.init {free : List Nat} {ram : List (Nat × UInt64)} {vm₀ : Vm} (hfree : FreeList free)
    (h : (Vm.boot free).init ram = some vm₀) :
    ∃ own, Tables own vm₀ ∧ own vm₀.activePml4 = some ⟨.kernel, 0⟩ := by
  have hboot : Tables (fun _ => none) (Vm.boot free) :=
    ⟨(fun _ _ _ _ h => nomatch h), hfree.1, fun p hp => ⟨rfl, hfree.2 p hp⟩, fun _ _ h => nomatch h⟩
  unfold Vm.init at h
  split at h
  · cases h
  · rename_i p vm₁ halloc
    simp only [Option.some.injEq] at h
    -- the PML4 is a fresh page, labelled as the kernel's root
    obtain ⟨hfresh, hpa, hpf, hzero, hg₁⟩ := hboot.alloc (R := fun _ _ => True) halloc
    have hg₂ := hg₁.label (b := ⟨.kernel, 0⟩) hfresh hpf hpa fun i t' _ hn => by
      rw [hzero i, PageTableEntry.next_zero] at hn
      cases hn
    have h₁ : KernelRooted p { vm₁ with activePml4 := p } :=
      ⟨_, ⟨hg₂.tables.closed, hg₂.tables.nodup, hg₂.tables.free, hg₂.tables.addressable⟩,
        by simp, rfl⟩
    suffices hk : KernelRooted p vm₀ by
      obtain ⟨own, hT, hp, hact⟩ := hk
      exact ⟨own, hT, hact ▸ hp⟩
    subst h
    -- the APICs, the VGA buffer and the PML4 itself, one page at a time
    refine KernelRooted.mapPageInternal (KernelRooted.mapPageInternal ?_ _ _ _) _ _ _
    refine KernelRooted.foldl ?_ _ (KernelRooted.mapPageInternal ?_ _ _ _)
    · exact fun vm _ hk => hk.mapPageInternal _ _ _
    -- the RAM pages, and their mirrors in the upper half
    refine KernelRooted.foldl ?_ _ h₁
    intro vm x hk
    split_ifs
    · exact (hk.mapPageInternal _ _ _).mapPageInternal _ _ _
    · exact hk.mapPageInternal _ _ _

end Vm

end Atom
