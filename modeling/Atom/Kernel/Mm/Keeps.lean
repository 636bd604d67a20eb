import Atom.Kernel.Mm.Tables

/-!
# Memory — what a run of page operations keeps

A run of the operations of `vm.rs` on labelled tables may leave behind the empty tables it linked
in and the `USER` bits it set on the way, but it changes no translation except at the leaf
entries it writes (`Vm.Keeps`): the followed entries of the labelled tables point where they did,
or pointed nowhere and now point at a new table (`Walk.Extends`); outside the leaf entries
written, an entry of a labelled page table is as it was and an entry of a new page table is clear.

* `Keeps.refl`, `Keeps.trans`: runs compose, their leaf entries adding up.
* `Keeps.translate`: a run that leaves not present every leaf entry it wrote, and wrote only
  where it found one not present, keeps every translation from a labelled PML4.
* `walkTables_keeps`, `mapPageInPml4_keeps`, `unmapPageInPml4_keeps`: one page; a mapping writes
  only the leaf its walk reaches, and only when it succeeds.
* `unmapPages_keeps`: the loop of `vm::unmap_page` clears every leaf its pages reach.
* `Mapped.rollback`: pages mapped one by one, then a mapping that fails and the loop that unmaps
  the pages mapped so far, keep every translation from a labelled PML4: the rollback of a loop
  of `vm::map_page` is complete.
-/

namespace Atom

open Lib

namespace Vm

/-- `vm'` keeps the translations from the roots `own` labels, except at the leaf entries `W`:
its tables are labelled by `own'`, which extends `own` by pages that were free; its followed
entries only grow; outside `W`, an entry of a page table `own` labels is as it was and an entry
of a page table `own` did not label is clear; no page became free; the active PML4 is kept. -/
structure Keeps (own : Nat → Option Tag) (W : Set (Nat × Fin ENTRIES_PER_TABLE)) (vm vm' : Vm)
    (own' : Nat → Option Tag) : Prop where
  tables : Tables own' vm'
  mono : ∀ p g, own p = some g → own' p = some g
  grows : Walk.Extends vm.mem vm'.mem PageTableEntry.next own own' Tag.Inner
  leaf : ∀ t g i, own t = some g → ¬ g.Inner → (t, i) ∉ W → vm'.mem t i = vm.mem t i
  fresh : ∀ t g i, own t = none → own' t = some g → ¬ g.Inner → (t, i) ∉ W → vm'.mem t i = 0
  labels : ∀ p g, own' p = some g → own p = some g ∨ p ∈ vm.free
  freeSub : ∀ p ∈ vm'.free, p ∈ vm.free
  active : vm'.activePml4 = vm.activePml4

/-- The leaf entries that `vm::unmap_page` may clear for the pages `virts`: where the walks of
the aligned ones reach, through a PML4 that is set. -/
def leavesOf (vm : Vm) (r : Nat) (virts : List Nat) : Set (Nat × Fin ENTRIES_PER_TABLE) :=
  {loc | ∃ v ∈ virts, isPageAligned v = true ∧ r ≠ 0 ∧ vm.leafOf r v = some loc}

variable {own own' own'' : Nat → Option Tag} {W W' : Set (Nat × Fin ENTRIES_PER_TABLE)}
  {vm vm' vm'' : Vm} {r : Nat} {g : Tag}

theorem labelEnd_walkPath_not_inner (hg : g.level = 0) (virt : Nat) :
    ¬ (Walk.labelEnd Tag.child g (walkPath virt)).Inner := by
  simp [Tag.Inner, labelEnd_walkPath_level hg virt]

/-- The leaf of a walk from a labelled PML4 lies in a labelled page table, at the leaf index. -/
theorem leafOf_labelled (hT : Tables own vm) (hr : own r = some g) (hg : g.level = 0) {virt : Nat}
    {loc : Nat × Fin ENTRIES_PER_TABLE} (h : vm.leafOf r virt = some loc) :
    own loc.1 = some (Walk.labelEnd Tag.child g (walkPath virt)) ∧ loc.2 = leafIndex virt := by
  simp only [leafOf, Walk.leafAt, Option.map_eq_some_iff] at h
  obtain ⟨pt, hpt, rfl⟩ := h
  exact ⟨Walk.tableAt_labelled hT.closed hr (guarded_walkPath hg virt) hpt, rfl⟩

/-! ### Runs -/

theorem Keeps.refl (hT : Tables own vm) : Keeps own ∅ vm vm own :=
  ⟨hT, fun _ _ h => h, .refl _ _ _ _, fun _ _ _ _ _ _ => rfl,
    (fun _ _ _ h h' => by rw [h] at h'; cases h'), fun _ _ h => .inl h, fun _ h => h, rfl⟩

theorem Keeps.trans (h₁ : Keeps own W vm vm' own') (h₂ : Keeps own' W' vm' vm'' own'') :
    Keeps own (W ∪ W') vm vm'' own'' := by
  refine ⟨h₂.tables, fun p g h => h₂.mono p g (h₁.mono p g h),
    h₁.grows.trans h₂.grows h₁.mono h₂.mono, fun t g i ht hg hW => ?_,
    fun t g i ht ht'' hg hW => ?_, fun p g h => ?_, fun p h => h₁.freeSub p (h₂.freeSub p h),
    h₂.active.trans h₁.active⟩
  · simp only [Set.mem_union, not_or] at hW
    rw [h₂.leaf t g i (h₁.mono t g ht) hg hW.2, h₁.leaf t g i ht hg hW.1]
  · simp only [Set.mem_union, not_or] at hW
    cases ht' : own' t with
    | none => exact h₂.fresh t g i ht' ht'' hg hW.2
    | some g' =>
        -- the table is the first run's: clear after it, and kept by the second
        have hg' : g' = g := Option.some.inj ((h₂.mono t g' ht').symm.trans ht'')
        subst hg'
        rw [h₂.leaf t g' i ht' hg hW.2, h₁.fresh t g' i ht ht' hg hW.1]
  · -- a page the second run labelled was labelled by the first, or free after it
    rcases h₂.labels p g h with h' | h'
    · exact h₁.labels p g h'
    · exact .inr (h₁.freeSub p h')

theorem Keeps.weaken (h : Keeps own W vm vm' own') (hW : W ⊆ W') : Keeps own W' vm vm' own' :=
  ⟨h.tables, h.mono, h.grows, fun t g i ht hg hi => h.leaf t g i ht hg fun hw => hi (hW hw),
    fun t g i ht ht' hg hi => h.fresh t g i ht ht' hg fun hw => hi (hW hw), h.labels, h.freeSub,
    h.active⟩

/-- A walk from a labelled table that got through still does, to the same table. -/
theorem Keeps.tableAt_of_some (h : Keeps own W vm vm' own') (hT : Tables own vm) (hr : own r = some g)
    {path : List (Fin ENTRIES_PER_TABLE)} (hguard : Walk.Guarded Tag.Inner Tag.child g path) {t : Nat}
    (ht : Walk.tableAt vm.mem PageTableEntry.next r path = some t) :
    Walk.tableAt vm'.mem PageTableEntry.next r path = some t := by
  rcases Walk.tableAt_extends hT.closed h.tables.closed h.mono h.grows hr hguard with
    hsame | ⟨hnone, -⟩
  · exact hsame.trans ht
  · rw [ht] at hnone
    cases hnone

theorem Keeps.leafOf_of_some (h : Keeps own W vm vm' own') (hT : Tables own vm) (hr : own r = some g)
    (hg : g.level = 0) {virt : Nat} {loc : Nat × Fin ENTRIES_PER_TABLE}
    (hl : vm.leafOf r virt = some loc) : vm'.leafOf r virt = some loc := by
  simp only [leafOf, Walk.leafAt, Option.map_eq_some_iff] at hl ⊢
  obtain ⟨pt, hpt, rfl⟩ := hl
  exact ⟨pt, h.tableAt_of_some hT hr (guarded_walkPath hg virt) hpt, rfl⟩

/-- The leaves of pages whose walks get through are kept. -/
theorem Keeps.leavesOf_eq (h : Keeps own W vm vm' own') (hT : Tables own vm) (hr : own r = some g)
    (hg : g.level = 0) {virts : List Nat} (hreach : ∀ v ∈ virts, (vm.leafOf r v).isSome) :
    vm'.leavesOf r virts = vm.leavesOf r virts := by
  ext loc
  simp only [leavesOf, Set.mem_ofPred_eq]
  refine exists_congr fun v => and_congr_right fun hv => and_congr_right fun _ =>
    and_congr_right fun _ => ?_
  obtain ⟨loc', hloc'⟩ := Option.isSome_iff_exists.mp (hreach v hv)
  rw [hloc', h.leafOf_of_some hT hr hg hloc']

/-- A run that labels no new table moves no walk from a labelled table. -/
theorem Keeps.tableAt_eq (h : Keeps own W vm vm' own) (hT : Tables own vm) (hr : own r = some g)
    {path : List (Fin ENTRIES_PER_TABLE)} (hguard : Walk.Guarded Tag.Inner Tag.child g path) :
    Walk.tableAt vm'.mem PageTableEntry.next r path = Walk.tableAt vm.mem PageTableEntry.next r path := by
  rcases Walk.tableAt_extends hT.closed h.tables.closed h.mono h.grows hr hguard with
    hsame | ⟨hnone, hto⟩
  · exact hsame
  · rw [hnone]
    cases ht : Walk.tableAt vm'.mem PageTableEntry.next r path with
    | none => rfl
    | some t =>
        -- a new table would be labelled, and there is none
        have hl := Walk.tableAt_labelled h.tables.closed hr hguard ht
        rw [hto t ht] at hl
        cases hl

theorem Keeps.leavesOf_eq_of_own (h : Keeps own W vm vm' own) (hT : Tables own vm)
    (hr : own r = some g) (hg : g.level = 0) (virts : List Nat) :
    vm'.leavesOf r virts = vm.leavesOf r virts := by
  ext loc
  simp only [leavesOf, leafOf, Walk.leafAt, Set.mem_ofPred_eq,
    h.tableAt_eq hT hr (guarded_walkPath hg _)]

/-- **A run that clears its leaves keeps every translation**: from a labelled PML4, a run that
leaves not present each leaf entry it wrote, and wrote only leaf entries of labelled page tables
it found not present, translates every address as before. -/
theorem Keeps.translate (h : Keeps own W vm vm' own') (hT : Tables own vm)
    (hW : ∀ loc ∈ W, PageTableEntry.isPresent (vm'.mem loc.1 loc.2) = false ∧
      ∀ g, own loc.1 = some g → PageTableEntry.isPresent (vm.mem loc.1 loc.2) = false)
    (hr : own r = some g) (hg : g.level = 0) (virt : Nat) :
    vm'.translate r virt = vm.translate r virt := by
  have hguard := guarded_walkPath hg virt
  have hleaf := labelEnd_walkPath_not_inner hg virt
  unfold Vm.translate Walk.entryAt
  rcases Walk.tableAt_extends hT.closed h.tables.closed h.mono h.grows hr hguard with
    hsame | ⟨hnone, hto⟩
  · rw [hsame]
    cases ht : Walk.tableAt vm.mem PageTableEntry.next r (walkPath virt) with
    | none => rfl
    | some pt =>
        -- the walk ends in the same labelled page table
        have hpt := Walk.tableAt_labelled hT.closed hr hguard ht
        by_cases hmem : (pt, leafIndex virt) ∈ W
        · obtain ⟨h₁, h₂⟩ := hW _ hmem
          dsimp only at h₁ h₂
          simp [Option.filter_some, h₁, h₂ _ hpt]
        · simp [h.leaf pt _ (leafIndex virt) hpt hleaf hmem]
  · rw [hnone]
    cases ht : Walk.tableAt vm'.mem PageTableEntry.next r (walkPath virt) with
    | none => rfl
    | some pt =>
        -- the walk now ends in a new page table, clear outside `W`
        have hpt := Walk.tableAt_labelled h.tables.closed (h.mono r g hr) hguard ht
        by_cases hmem : (pt, leafIndex virt) ∈ W
        · have h₁ := (hW _ hmem).1
          dsimp only at h₁
          simp [Option.filter_some, h₁]
        · simp [Option.filter_some, h.fresh pt _ (leafIndex virt) (hto pt ht) hpt hleaf hmem]

/-! ### Writing one entry -/

/-- A write that keeps where an entry of a labelled table points changes no translation. -/
theorem Tables.keeps_writeNext (hT : Tables own vm) {t : Nat} (ht : own t = some g) (hg : g.Inner)
    {i : Fin ENTRIES_PER_TABLE} {e : UInt64}
    (he : PageTableEntry.next e = PageTableEntry.next (vm.mem t i)) :
    Keeps own ∅ vm (vm.write t i e) own := by
  have hG : Grows own (fun _ _ => True) vm (vm.write t i e) own :=
    hT.grows_write (fun b t' hb hb' hn => by
      rw [ht, Option.some.injEq] at hb
      subst hb
      exact hT.closed t _ i t' ht hb' (he ▸ hn)) (.inr ⟨g, ht, trivial⟩)
  refine ⟨hG.tables, fun _ _ h => h, ⟨fun t' b i' _ _ => .inl ?_,
    fun _ _ _ _ h h' => by rw [h] at h'; cases h'⟩, fun t' g' i' ht' hg' _ => ?_,
    (fun _ _ _ h h' => by rw [h] at h'; cases h'), fun _ _ h => .inl h, fun _ h => h, rfl⟩
  · rw [write_apply]
    split_ifs with hw
    · obtain ⟨rfl, rfl⟩ := hw
      exact he
    · rfl
  · -- a page table is not the inner table written
    have htt : t' ≠ t := by
      rintro rfl
      rw [ht, Option.some.injEq] at ht'
      subst ht'
      exact hg' hg
    rw [write_apply, if_neg fun h => htt h.1]

/-- A write at an entry of a labelled page table changes nothing but that entry. -/
theorem Tables.keeps_writeLeaf (hT : Tables own vm) {t : Nat} (ht : own t = some g) (hg : ¬ g.Inner)
    (i : Fin ENTRIES_PER_TABLE) (e : UInt64) : Keeps own {(t, i)} vm (vm.write t i e) own := by
  have hG : Grows own (fun _ _ => True) vm (vm.write t i e) own :=
    hT.grows_write (fun b _ hb hb' _ => by
      rw [ht, Option.some.injEq] at hb
      exact absurd (hb ▸ hb') hg) (.inr ⟨g, ht, trivial⟩)
  refine ⟨hG.tables, fun _ _ h => h, ⟨fun t' b i' ht' hb => .inl ?_,
    fun _ _ _ _ h h' => by rw [h] at h'; cases h'⟩, fun t' g' i' _ _ hW => ?_,
    (fun _ _ _ h h' => by rw [h] at h'; cases h'), fun _ _ h => .inl h, fun _ h => h, rfl⟩
  · -- an inner table is not the page table written
    have htt : t' ≠ t := by
      rintro rfl
      rw [ht, Option.some.injEq] at ht'
      exact hg (ht' ▸ hb)
    rw [write_apply, if_neg fun h => htt h.1]
  · have hne : ¬ (t' = t ∧ i' = i) := by
      rintro ⟨rfl, rfl⟩
      exact hW rfl
    rw [write_apply, if_neg hne]

/-- **Linking a fresh table** where a followed entry of a labelled table was not present changes
no translation: the new table is labelled one level down, and its entries are clear. -/
theorem Tables.keeps_link (hT : Tables own vm) {t : Nat} (ht : own t = some g) (hg : g.Inner)
    {i : Fin ENTRIES_PER_TABLE} (hp : ¬ PageTableEntry.isPresent (vm.mem t i) = true) {phys : Nat}
    {vm₁ : Vm} (halloc : vm.allocPageZeroed = some (phys, vm₁)) {e : UInt64}
    (he : PageTableEntry.next e = some phys) :
    ∃ own', Keeps own ∅ vm (vm₁.write t i e) own' ∧ own' phys = some (g.child i) ∧
      PageTableEntry.next ((vm₁.write t i e).mem t i) = some phys := by
  obtain ⟨hfresh, hpa, hpf, hzero, hg₁⟩ := hT.alloc (R := fun _ _ => True) halloc
  have hg₂ := hg₁.label (b := g.child i) hfresh hpf hpa fun j t'' _ hn => by
    rw [hzero j, PageTableEntry.next_zero] at hn
    cases hn
  have htp : t ≠ phys := by
    rintro rfl
    rw [hfresh] at ht
    cases ht
  have ht₂ : Function.update own phys (some (g.child i)) t = some g := by
    rw [Function.update_of_ne htp, ht]
  have hG := hg₂.tables.grows_write (R := fun _ _ => True) (t := t) (i := i) (fun b t'' hb _ hn => by
    rw [ht₂, Option.some.injEq] at hb
    subst hb
    rw [he, Option.some.injEq] at hn
    subst hn
    simp) (.inr ⟨g, ht₂, trivial⟩)
  obtain ⟨rest, hfree, rfl⟩ := allocPageZeroed_eq halloc
  -- the memory after: the link, the fresh table cleared, the rest as it was
  have hmem : ∀ t' i', (({ vm with mem := Function.update vm.mem phys fun _ => 0, free := rest } :
      Vm).write t i e).mem t' i' = if t' = t ∧ i' = i then e else if t' = phys then 0 else vm.mem t' i' := by
    intro t' i'
    rw [write_apply]
    split_ifs with h₁ h₂ <;> simp_all [Function.update_of_ne]
  -- a table `own` labels is not the fresh one
  have hold : ∀ t' b, own t' = some b → t' ≠ phys := by
    rintro t' b h rfl
    rw [hfresh] at h
    cases h
  -- a table only the new labelling labels is the fresh one
  have hnew : ∀ t' b, own t' = none → Function.update own phys (some (g.child i)) t' = some b →
      t' = phys := by
    intro t' b h h'
    by_contra hne
    rw [Function.update_of_ne hne, h] at h'
    cases h'
  refine ⟨_, ⟨hG.tables, hg₂.mono, ⟨fun t' b i' ht' _ => ?_, fun t' b i' t'' ht' ht'' _ hn => ?_⟩,
    fun t' g' i' ht' hg' _ => ?_, fun t' g' i' ht' ht'' _ _ => ?_, fun p b hp' => ?_,
    fun p hp' => by rw [hfree]; exact List.mem_cons_of_mem _ hp', rfl⟩, by simp, ?_⟩
  · rw [hmem, if_neg (hold t' b ht')]
    by_cases hw : t' = t ∧ i' = i
    · -- the entry written pointed nowhere, and now points at the fresh table
      obtain ⟨rfl, rfl⟩ := hw
      rw [if_pos ⟨rfl, rfl⟩]
      refine .inr ⟨by simp [PageTableEntry.next, hp], fun t'' hn => ?_⟩
      rw [he, Option.some.injEq] at hn
      exact hn ▸ hfresh
    · rw [if_neg hw]
      exact .inl rfl
  · rw [hnew t' b ht' ht'', hmem, if_neg fun h => htp h.1.symm, if_pos rfl,
      PageTableEntry.next_zero] at hn
    cases hn
  · have htt : ¬ (t' = t ∧ i' = i) := by
      rintro ⟨rfl, rfl⟩
      rw [ht, Option.some.injEq] at ht'
      exact hg' (ht' ▸ hg)
    rw [hmem, if_neg htt, if_neg (hold t' g' ht')]
  · rw [hnew t' g' ht' ht'', hmem, if_neg fun h => htp h.1.symm, if_pos rfl]
  · -- the only new label is the fresh page's, which was free
    by_cases hpp : p = phys
    · exact .inr (by simp [hfree, hpp])
    · rw [Function.update_of_ne hpp] at hp'
      exact .inl hp'
  · rw [hmem, if_pos ⟨rfl, rfl⟩, he]

/-! ### The walks -/

section Walks

variable {t : Nat}

/-- **`ensure_table_user` changes no translation**: it sets a `USER` bit, which moves no entry,
or links a fresh table where an entry was not present; the entry it read then points at the
table it returns. -/
theorem ensureTableUser_keeps (hT : Tables own vm) (ht : own t = some g) (hg : g.Inner)
    {i : Fin ENTRIES_PER_TABLE} {create u : Bool} {t' : Nat}
    (h : vm.ensureTableUser t i create u = .ok (t', vm')) :
    ∃ own', Keeps own ∅ vm vm' own' ∧ own' t' = some (g.child i) ∧
      PageTableEntry.next (vm'.mem t i) = some t' := by
  dsimp only [ensureTableUser] at h
  by_cases hp : PageTableEntry.isPresent (vm.mem t i) = true
  · have hnext : PageTableEntry.next (vm.mem t i) = some (PageTableEntry.addr (vm.mem t i)) := by
      simp [PageTableEntry.next, hp]
    have hchild := hT.closed t g i _ ht hg hnext
    rw [if_pos hp] at h
    split_ifs at h
    · simp only [Except.ok.injEq, Prod.mk.injEq] at h
      obtain ⟨rfl, rfl⟩ := h
      have he := PageTableEntry.next_or_user (vm.mem t i)
      refine ⟨own, hT.keeps_writeNext ht hg he, hchild, ?_⟩
      rw [write_apply, if_pos ⟨rfl, rfl⟩, he, hnext]
    · simp only [Except.ok.injEq, Prod.mk.injEq] at h
      obtain ⟨rfl, rfl⟩ := h
      exact ⟨own, .refl hT, hchild, hnext⟩
  · rw [if_neg hp] at h
    by_cases hc : (!create) = true
    · rw [if_pos hc] at h
      cases h
    rw [if_neg hc] at h
    split at h
    · cases h
    · rename_i phys vm₁ halloc
      simp only [Except.ok.injEq, Prod.mk.injEq] at h
      obtain ⟨rfl, rfl⟩ := h
      exact hT.keeps_link ht hg hp halloc
        (PageTableEntry.next_set_table (hT.alloc (R := fun _ _ => True) halloc).2.1 u)

/-- **The walk of `walk_to_entry_with_root_user` changes no translation**; a walk that gets
through ends at the table `labelEnd` labels, where the walk in the memory it leaves ends. -/
theorem walkTables_keeps {create u : Bool} :
    ∀ {path : List (Fin ENTRIES_PER_TABLE)} {own : Nat → Option Tag} {vm vm' : Vm} {t : Nat}
      {g : Tag} {res : Except VmError Nat}, Tables own vm → own t = some g →
      Walk.Guarded Tag.Inner Tag.child g path → walkTables create u vm t path = (res, vm') →
      ∃ own', Keeps own ∅ vm vm' own' ∧ ∀ pt, res = .ok pt →
        own' pt = some (Walk.labelEnd Tag.child g path) ∧
        Walk.tableAt vm'.mem PageTableEntry.next t path = some pt
  | [], own, vm, vm', t, g, res, hT, ht, _, h => by
      simp only [walkTables, Prod.mk.injEq] at h
      obtain ⟨rfl, rfl⟩ := h
      refine ⟨own, .refl hT, fun pt hpt => ?_⟩
      cases hpt
      exact ⟨ht, rfl⟩
  | i :: path, own, vm, vm', t, g, res, hT, ht, hg, h => by
      obtain ⟨hG, hg⟩ := hg
      simp only [walkTables] at h
      split at h
      · simp only [Prod.mk.injEq] at h
        obtain ⟨rfl, rfl⟩ := h
        exact ⟨own, .refl hT, fun _ h => by cases h⟩
      · rename_i t₁ vm₁ hstep
        obtain ⟨own₁, hk₁, ht₁, hn₁⟩ := ensureTableUser_keeps hT ht hG hstep
        -- the rest of the walk starts at the table one level down
        obtain ⟨own₂, hk₂, hend⟩ := walkTables_keeps hk₁.tables ht₁ hg h
        refine ⟨own₂, by simpa using hk₁.trans hk₂, fun pt hpt => ⟨(hend pt hpt).1, ?_⟩⟩
        -- the entry read still points at that table: it pointed somewhere already
        have hn : PageTableEntry.next (vm'.mem t i) = some t₁ := by
          rcases hk₂.grows.old t g i (hk₁.mono t g ht) hG with hsame | ⟨hnone, -⟩
          · exact hsame.trans hn₁
          · rw [hn₁] at hnone
            cases hnone
        rw [Walk.tableAt_cons, hn, Option.bind_some]
        exact (hend pt hpt).2

end Walks

/-! ### One page -/

section Page

variable {virt : Nat}

theorem walkToEntryWithRootUser_keeps (hT : Tables own vm) (hr : own r = some g) (hg : g.level = 0)
    {create u : Bool} {res : Except VmError (Nat × Fin ENTRIES_PER_TABLE)}
    (h : vm.walkToEntryWithRootUser r virt create u = (res, vm')) :
    ∃ own', Keeps own ∅ vm vm' own' ∧ ∀ pt i, res = .ok (pt, i) →
      own' pt = some (Walk.labelEnd Tag.child g (walkPath virt)) ∧
      vm'.leafOf r virt = some (pt, i) := by
  unfold walkToEntryWithRootUser at h
  split at h
  · rename_i pt vm₁ hw
    obtain ⟨own₁, hk₁, hend⟩ := walkTables_keeps hT hr (guarded_walkPath hg virt) hw
    obtain ⟨rfl, rfl⟩ := Prod.mk.inj h
    refine ⟨own₁, hk₁, fun pt' i hpt => ?_⟩
    simp only [Except.ok.injEq, Prod.mk.injEq] at hpt
    obtain ⟨rfl, rfl⟩ := hpt
    obtain ⟨hown, htab⟩ := hend pt rfl
    exact ⟨hown, by simp [leafOf, Walk.leafAt, htab]⟩
  · rename_i e vm₁ hw
    obtain ⟨own₁, hk₁, -⟩ := walkTables_keeps hT hr (guarded_walkPath hg virt) hw
    obtain ⟨rfl, rfl⟩ := Prod.mk.inj h
    exact ⟨own₁, hk₁, fun _ _ h => by cases h⟩

/-- **`map_page_in_pml4` writes only the leaf it reaches, and only when it succeeds**: that leaf
is then where the walk of `virt` ends, and it was not present. -/
theorem mapPageInPml4_keeps (hT : Tables own vm) (hr : own r = some g) (hg : g.level = 0)
    {phys : Nat} {flags : UInt64} {res : Except VmError Unit}
    (h : vm.mapPageInPml4 r virt phys flags = (res, vm')) :
    ∃ own', Keeps own {loc | res = .ok () ∧ vm'.leafOf r virt = some loc} vm vm' own' ∧
      (res = .ok () → isPageAligned virt = true ∧ r ≠ 0 ∧ ∃ loc, vm'.leafOf r virt = some loc ∧
        ∀ g', own loc.1 = some g' → PageTableEntry.isPresent (vm.mem loc.1 loc.2) = false) := by
  -- a call that fails before the walk writes nothing
  have hnone : ∀ e, res = .error e → vm' = vm →
      ∃ own', Keeps own {loc | res = .ok () ∧ vm'.leafOf r virt = some loc} vm vm' own' ∧
        (res = .ok () → isPageAligned virt = true ∧ r ≠ 0 ∧ ∃ loc, vm'.leafOf r virt = some loc ∧
          ∀ g', own loc.1 = some g' → PageTableEntry.isPresent (vm.mem loc.1 loc.2) = false) := by
    rintro e rfl rfl
    exact ⟨own, (Keeps.refl hT).weaken (Set.empty_subset _), fun h => by cases h⟩
  unfold mapPageInPml4 mapPageInternal at h
  split_ifs at h with hal hr0
  · exact hnone _ (Prod.mk.inj h).1.symm (Prod.mk.inj h).2.symm
  · exact hnone _ (Prod.mk.inj h).1.symm (Prod.mk.inj h).2.symm
  have hvirt : isPageAligned virt = true := by
    revert hal
    cases isPageAligned virt <;> simp
  dsimp only at h
  split at h
  · rename_i e vm₁ hw
    obtain ⟨own₁, hk₁, -⟩ := walkToEntryWithRootUser_keeps hT hr hg hw
    obtain ⟨rfl, rfl⟩ := Prod.mk.inj h
    exact ⟨own₁, hk₁.weaken (Set.empty_subset _), fun h => by cases h⟩
  · rename_i pt i vm₁ hw
    obtain ⟨own₁, hk₁, hend⟩ := walkToEntryWithRootUser_keeps hT hr hg hw
    obtain ⟨hpt, hleaf⟩ := hend pt i rfl
    split_ifs at h with hp
    · obtain ⟨rfl, rfl⟩ := Prod.mk.inj h
      exact ⟨own₁, hk₁.weaken (Set.empty_subset _), fun h => by cases h⟩
    · obtain ⟨rfl, rfl⟩ := Prod.mk.inj h
      -- the leaf is written, in a page table: no walk moves
      have hk₂ := hk₁.tables.keeps_writeLeaf hpt (labelEnd_walkPath_not_inner hg virt) i
        (PageTableEntry.set phys flags)
      have hleaf' := hk₂.leafOf_of_some hk₁.tables (hk₁.mono r g hr) hg hleaf
      refine ⟨own₁, (hk₁.trans hk₂).weaken ?_, fun _ => ⟨hvirt, hr0, (pt, i), hleaf', ?_⟩⟩
      · rintro loc (hloc | hloc)
        · cases hloc
        · exact ⟨rfl, (Set.mem_singleton_iff.mp hloc) ▸ hleaf'⟩
      · -- a labelled page table the walk did not write: the leaf was as the walk found it
        intro g' hg'
        have hg'' : g' = Walk.labelEnd Tag.child g (walkPath virt) :=
          Option.some.inj ((hk₁.mono pt g' hg').symm.trans hpt)
        rw [← hk₁.leaf pt g' i hg' (hg'' ▸ labelEnd_walkPath_not_inner hg virt)
          (Set.notMem_empty _)]
        simpa using hp

/-- **`unmap_page_in_pml4` clears the leaf it reaches and nothing else**: an aligned page through
a set PML4 has its leaf not present after it. -/
theorem unmapPageInPml4_keeps (hT : Tables own vm) (hr : own r = some g) (hg : g.level = 0)
    {res : Except VmError Unit} (h : vm.unmapPageInPml4 r virt = (res, vm')) :
    Keeps own (vm.leavesOf r [virt]) vm vm' own ∧
      ∀ loc ∈ vm.leavesOf r [virt], PageTableEntry.isPresent (vm'.mem loc.1 loc.2) = false := by
  by_cases hres : res = .ok ()
  · subst hres
    obtain ⟨pt, i, hleaf, rfl⟩ := unmapPageInPml4_of_ok h
    have hal : isPageAligned virt = true := by
      cases hal : isPageAligned virt with
      | true => rfl
      | false => simp [unmapPageInPml4, hal] at h
    have hr0 : r ≠ 0 := by
      rintro rfl
      simp [unmapPageInPml4, hal] at h
    have hmem : (pt, i) ∈ vm.leavesOf r [virt] := ⟨virt, List.mem_singleton_self _, hal, hr0, hleaf⟩
    obtain ⟨hpt, -⟩ := leafOf_labelled hT hr hg hleaf
    refine ⟨(hT.keeps_writeLeaf hpt (labelEnd_walkPath_not_inner hg virt) i 0).weaken
      (Set.singleton_subset_iff.mpr hmem), fun loc hloc => ?_⟩
    obtain ⟨v, hv, -, -, hloc⟩ := hloc
    rw [List.mem_singleton.mp hv, hleaf, Option.some.injEq] at hloc
    subst hloc
    simp [write_apply]
  · have hvm := unmapPageInPml4_error hres h
    subst vm'
    refine ⟨(Keeps.refl hT).weaken (Set.empty_subset _), fun loc hloc => ?_⟩
    -- the call failed on an aligned page with a leaf: the leaf was not present
    obtain ⟨v, hv, hal, hr0, hloc⟩ := hloc
    rw [List.mem_singleton.mp hv] at hal hloc
    obtain ⟨pt, i⟩ := loc
    rw [unmapPageInPml4_eq hal hr0, hloc] at h
    dsimp only at h ⊢
    by_cases hp : PageTableEntry.isPresent (vm.mem pt i) = true
    · rw [if_pos hp] at h
      exact absurd (Prod.mk.inj h).1.symm hres
    · simpa using hp

end Page

/-! ### The loops over pages -/

theorem leavesOf_cons (vm : Vm) (r v : Nat) (virts : List Nat) :
    vm.leavesOf r (v :: virts) = vm.leavesOf r [v] ∪ vm.leavesOf r virts := by
  ext loc
  simp [leavesOf, or_and_right, exists_or]

theorem leavesOf_append (vm : Vm) (r : Nat) (virts virts' : List Nat) :
    vm.leavesOf r (virts ++ virts') = vm.leavesOf r virts ∪ vm.leavesOf r virts' := by
  ext loc
  simp [leavesOf, or_and_right, exists_or]

/-- **The loop of `vm::unmap_page` clears every leaf its pages reach**, and writes nothing
else. -/
theorem unmapPages_keeps (hr : own r = some g) (hg : g.level = 0) :
    ∀ {virts : List Nat} {vm vm' : Vm} {n : Nat}, Tables own vm → vm.unmapPages r virts = (n, vm') →
      Keeps own (vm.leavesOf r virts) vm vm' own ∧
        ∀ loc ∈ vm.leavesOf r virts, PageTableEntry.isPresent (vm'.mem loc.1 loc.2) = false
  | [], vm, vm', n, hT, h => by
      simp only [unmapPages, Prod.mk.injEq] at h
      obtain ⟨-, rfl⟩ := h
      refine ⟨(Keeps.refl hT).weaken (Set.empty_subset _), fun loc hloc => ?_⟩
      obtain ⟨v, hv, -⟩ := hloc
      cases hv
  | virt :: virts, vm, vm', n, hT, h => by
      -- the first page, then the rest from the memory it leaves
      obtain ⟨vm₁, hstep, hrest⟩ : ∃ vm₁, (∃ res, vm.unmapPageInPml4 r virt = (res, vm₁)) ∧
          ∃ n', vm₁.unmapPages r virts = (n', vm') := by
        simp only [unmapPages] at h
        split at h
        · rename_i vm₁ hpage
          exact ⟨vm₁, ⟨_, hpage⟩, ⟨n, h⟩⟩
        · rename_i vm₁ hpage
          generalize hrest : unmapPages vm₁ r virts = rest at h
          obtain ⟨n₂, vm₂⟩ := rest
          obtain ⟨-, rfl⟩ := Prod.mk.inj h
          exact ⟨vm₁, ⟨_, hpage⟩, ⟨n₂, hrest⟩⟩
      obtain ⟨res, hstep⟩ := hstep
      obtain ⟨n', hrest⟩ := hrest
      obtain ⟨hk₁, hclear₁⟩ := unmapPageInPml4_keeps hT hr hg hstep
      obtain ⟨hk₂, hclear₂⟩ := unmapPages_keeps hr hg hk₁.tables hrest
      -- the leaves of the rest are where they were: the first step moved no walk
      rw [hk₁.leavesOf_eq_of_own hT hr hg] at hk₂ hclear₂
      refine ⟨by rw [leavesOf_cons]; exact hk₁.trans hk₂, fun loc hloc => ?_⟩
      by_cases hin : loc ∈ vm.leavesOf r virts
      · exact hclear₂ loc hin
      · -- the first page's leaf, which the rest of the loop does not write
        have hfirst : loc ∈ vm.leavesOf r [virt] := by
          rw [leavesOf_cons] at hloc
          exact hloc.resolve_right hin
        obtain ⟨v, hv, -, -, hl⟩ := id hfirst
        rw [List.mem_singleton.mp hv] at hl
        obtain ⟨hpt, -⟩ := leafOf_labelled hT hr hg hl
        rw [hk₂.leaf loc.1 _ loc.2 hpt (labelEnd_walkPath_not_inner hg virt) hin]
        exact hclear₁ loc hfirst

/-! ### Rolling back -/

/-- After the pages `virts` were mapped one by one from `vm₀` into `vm` through the PML4 `r`: the
run keeps every translation but at their leaves, which their walks reach; and each of those
leaves that lies in a table `own₀` labels was not present in `vm₀`. -/
structure Mapped (own₀ : Nat → Option Tag) (vm₀ : Vm) (r : Nat) (virts : List Nat) (vm : Vm)
    (own : Nat → Option Tag) : Prop where
  keeps : Keeps own₀ (vm.leavesOf r virts) vm₀ vm own
  reached : ∀ v ∈ virts, isPageAligned v = true ∧ r ≠ 0 ∧ (vm.leafOf r v).isSome
  clear : ∀ loc ∈ vm.leavesOf r virts, ∀ g, own₀ loc.1 = some g →
    PageTableEntry.isPresent (vm₀.mem loc.1 loc.2) = false

@[simp] theorem leavesOf_nil (vm : Vm) (r : Nat) : vm.leavesOf r [] = ∅ := by
  ext loc
  simp [leavesOf]

variable {own₀ : Nat → Option Tag} {vm₀ : Vm} {virts : List Nat}

theorem Mapped.nil (hT : Tables own₀ vm₀) (r : Nat) : Mapped own₀ vm₀ r [] vm₀ own₀ :=
  ⟨by rw [leavesOf_nil]; exact Keeps.refl hT, fun _ h => (by cases h),
    fun _ h => (by rw [leavesOf_nil] at h; cases h)⟩

/-- One more page mapped. -/
theorem Mapped.snoc (hm : Mapped own₀ vm₀ r virts vm own) (hr : own₀ r = some g) (hg : g.level = 0)
    {v phys : Nat} {flags : UInt64} (h : vm.mapPageInPml4 r v phys flags = (.ok (), vm')) :
    ∃ own', Mapped own₀ vm₀ r (virts ++ [v]) vm' own' := by
  have hT := hm.keeps.tables
  have hr' := hm.keeps.mono r g hr
  obtain ⟨own', hk, hok⟩ := mapPageInPml4_keeps hT hr' hg h
  obtain ⟨hal, hr0, loc, hloc, hwas⟩ := hok rfl
  -- the pages mapped before keep their leaves
  have hsame := hk.leavesOf_eq hT hr' hg fun v' hv' => (hm.reached v' hv').2.2
  have hnew : ∀ loc', loc' ∈ vm'.leavesOf r [v] → loc' = loc := by
    rintro loc' ⟨v', hv', -, -, hl⟩
    rw [List.mem_singleton.mp hv', hloc, Option.some.injEq] at hl
    exact hl.symm
  refine ⟨own', ⟨?_, fun v' hv' => ?_, fun loc' hloc' g' hg' => ?_⟩⟩
  · rw [leavesOf_append, hsame]
    refine (hm.keeps.trans hk).weaken (Set.union_subset_union_right _ ?_)
    rintro loc' ⟨-, hl⟩
    exact ⟨v, List.mem_singleton_self v, hal, hr0, hl⟩
  · rcases List.mem_append.mp hv' with hv' | hv'
    · obtain ⟨hal', hr0', hsome⟩ := hm.reached v' hv'
      obtain ⟨loc', hloc'⟩ := Option.isSome_iff_exists.mp hsome
      exact ⟨hal', hr0', by rw [hk.leafOf_of_some hT hr' hg hloc']; rfl⟩
    · rw [List.mem_singleton.mp hv', hloc]
      exact ⟨hal, hr0, rfl⟩
  · rw [leavesOf_append, hsame] at hloc'
    rcases hloc' with hloc' | hloc'
    · exact hm.clear loc' hloc' g' hg'
    · obtain rfl := hnew loc' hloc'
      by_cases hin : loc' ∈ vm.leavesOf r virts
      · exact hm.clear loc' hin g' hg'
      · -- a leaf no page before wrote: in `vm₀` it was as the mapping found it
        obtain ⟨hpt, -⟩ := leafOf_labelled hk.tables (hk.mono r g hr') hg hloc
        have hg'' : g' = Walk.labelEnd Tag.child g (walkPath v) :=
          Option.some.inj ((hk.mono _ g' (hm.keeps.mono _ g' hg')).symm.trans hpt)
        rw [← hm.keeps.leaf _ g' _ hg' (hg'' ▸ labelEnd_walkPath_not_inner hg v) hin]
        exact hwas g' (hm.keeps.mono _ g' hg')

/-- **The rollback is complete**: after the pages `virts` were mapped, a mapping through the same
PML4 that fails, followed by the loop that unmaps `virts`, leaves every translation from every
PML4 `own₀` labels as it was in `vm₀`.  The empty tables the run linked in, and the `USER` bits
it set on the way, stay. -/
theorem Mapped.rollback (hm : Mapped own₀ vm₀ r virts vm own) (hT₀ : Tables own₀ vm₀)
    (hr : own₀ r = some g) (hg : g.level = 0) {v phys : Nat} {flags : UInt64} {e : VmError}
    {vm₁ vm₂ : Vm} {n : Nat} (hfail : vm.mapPageInPml4 r v phys flags = (.error e, vm₁))
    (hun : vm₁.unmapPages r virts = (n, vm₂)) {r' : Nat} {g' : Tag} (hr' : own₀ r' = some g')
    (hg' : g'.level = 0) (virt : Nat) : vm₂.translate r' virt = vm₀.translate r' virt := by
  have hT := hm.keeps.tables
  have hrv := hm.keeps.mono r g hr
  obtain ⟨own₁, hk₁, -⟩ := mapPageInPml4_keeps hT hrv hg hfail
  -- the failed mapping moved no leaf of the pages mapped before it
  have hsame := hk₁.leavesOf_eq hT hrv hg fun v' hv' => (hm.reached v' hv').2.2
  obtain ⟨hk₂, hclear⟩ := unmapPages_keeps (hk₁.mono r g hrv) hg hk₁.tables hun
  refine ((hm.keeps.trans hk₁).trans hk₂).translate hT₀ (fun loc hloc => ?_) hr' hg' virt
  rw [hsame] at hclear
  rcases hloc with (hloc | hloc) | hloc
  · exact ⟨hclear loc hloc, hm.clear loc hloc⟩
  · exact absurd hloc.1 (by simp)
  · rw [hsame] at hloc
    exact ⟨hclear loc hloc, hm.clear loc hloc⟩

end Vm

end Atom
