import Atom.Kernel.Mm.Tables

/-!
# Memory — address spaces are isolated

The address-space manager over labelled page tables (`AddressSpaceManager.Labelled`): the active
PML4 is the kernel's root, and every space is stored under its id, below the id counter, with its
PML4 the root of its own user half.  Every call keeps such a labelling, so one exists along every
run from a boot over a free list `pmm` can hold (`labelled_of_reachable`).

* `translate_userHalf_isolated`: a call other than the owner's call on a space leaves the space,
  and every translation of its user half, as they were.
* `translate_kernel_kept`: every call but `remap_region` leaves the active PML4 and its
  translations, and the translations of the kernel half through every space, as they were.
  `remap_region` is the exception (`remapRegion_twoSpaces`): it takes its pages from any half.
-/

namespace Atom

open Lib

namespace AddressSpaceManager

/-- The space a call acts on and the thread that makes it; `create` acts on no space. -/
def Call.actor : Call → Option (AddressSpaceId × ThreadId)
  | .create _ => none
  | .destroy id caller => some (id, caller)
  | .mapRegion id caller _ _ _ _ => some (id, caller)
  | .unmapRegion id caller _ _ => some (id, caller)
  | .remapRegion id caller _ _ _ => some (id, caller)

/-- **The manager's labelled tables**: the active PML4 is the kernel's root; every space is
stored under its id, below the id counter, and its PML4 is the root of its user half. -/
structure Labelled (m : AddressSpaceManager) (own : Nat → Option Tag) : Prop where
  tables : m.vm.Tables own
  active : own m.vm.activePml4 = some ⟨.kernel, 0⟩
  spaces : ∀ id a, m.spaces.lookup id = some a →
    a.id = id ∧ id < m.nextId ∧ own a.pml4Phys = some ⟨.user id, 0⟩

/-- The managers reachable by calls from the paging state `vm::init` leaves over a free list
`pmm` can hold. -/
def IsPmmReachable (m : AddressSpaceManager) : Prop :=
  ∃ free ram vm₀, Vm.FreeList free ∧ (Vm.boot free).init ram = some vm₀ ∧
    Reachable (Det apply) (new vm₀) m

/-! ### What a call writes -/

/-- What a call on the space `id` may write: tables of its user half, and the kernel's. -/
def OwnedBy (id : AddressSpaceId) (g : Tag) (_ : Fin ENTRIES_PER_TABLE) : Prop :=
  g.owner = .user id ∨ g.owner = .kernel

/-- What a call that keeps to the user half of the space `id` may write: tables of that half,
and the lower half of its PML4. -/
def UserHalf (id : AddressSpaceId) (g : Tag) (i : Fin ENTRIES_PER_TABLE) : Prop :=
  g.owner = .user id ∧ (g.level = 0 → i.val < ENTRIES_PER_TABLE / 2)

/-- An address of the lower half: its PML4 index is below `256`. -/
def LowerHalf (virt : Nat) : Prop := ((splitIndices virt).1 : Nat) < ENTRIES_PER_TABLE / 2

instance (virt : Nat) : Decidable (LowerHalf virt) :=
  inferInstanceAs (Decidable (((splitIndices virt).1 : Nat) < ENTRIES_PER_TABLE / 2))

/-- Every address up to `USER_CANONICAL_MAX` is in the lower half. -/
theorem lowerHalf_of_le {virt : Nat} (hv : virt ≤ USER_CANONICAL_MAX.toNat) : LowerHalf virt := by
  have hand : virt / 2 ^ 39 &&& 0x1FF ≤ virt / 2 ^ 39 := Nat.and_le_left
  have hmax : USER_CANONICAL_MAX.toNat = 2 ^ 47 - 1 := by decide
  simp only [LowerHalf, splitIndices, tableIndex, ENTRIES_PER_TABLE, Nat.shiftRight_eq_div_pow]
  omega

/-- The pages of a range that ends at or below `USER_CANONICAL_MAX` are in the lower half. -/
theorem regionPage_lowerHalf {virt size k : Nat} (hend : virt + size ≤ USER_CANONICAL_MAX.toNat)
    (hk : k < alignUp size / PAGE_SIZE) : LowerHalf (virt + k * PAGE_SIZE) := by
  have hpages : alignUp size / PAGE_SIZE = (size + PAGE_SIZE - 1) / PAGE_SIZE :=
    Nat.mul_div_cancel _ (by decide)
  rw [hpages] at hk
  refine lowerHalf_of_le ?_
  unfold PAGE_SIZE at hk ⊢
  omega

/-- The walk of a space's PML4 writes where a call on that space may write. -/
theorem ownedBy_walk (id : AddressSpaceId) (virt : Nat) :
    ∀ g i, Vm.walkLabels ⟨.user id, 0⟩ virt g i → OwnedBy id g i := by
  intro g i hx
  rcases Tag.mem_labelsAlong_walkPath hx with h | ⟨ho, -⟩
  · cases h
    exact .inl rfl
  · -- past the PML4, the owner is that of the half the address lies in
    by_cases hi : ((splitIndices virt).1 : Nat) < ENTRIES_PER_TABLE / 2
    · exact .inl (ho.trans (Tag.child_user_lower hi))
    · exact .inr (ho.trans (Tag.child_upper _ (Nat.not_lt.mp hi)))

/-- The walk of a lower-half address from a space's PML4 stays in its user half. -/
theorem userHalf_walk (id : AddressSpaceId) {virt : Nat} (hv : LowerHalf virt) :
    ∀ g i, Vm.walkLabels ⟨.user id, 0⟩ virt g i → UserHalf id g i := by
  intro g i hx
  rcases Tag.mem_labelsAlong_walkPath hx with h | ⟨ho, hl⟩
  · cases h
    exact ⟨rfl, fun _ => hv⟩
  · exact ⟨ho.trans (Tag.child_user_lower hv), fun h0 => absurd h0 (Nat.pos_iff_ne_zero.mp hl)⟩

/-- The user half of one space is none of another's, and none of the kernel's. -/
theorem not_ownedBy_walk {id id' : AddressSpaceId} (hne : id' ≠ id) {virt : Nat}
    (hv : LowerHalf virt) : ∀ g i, Vm.walkLabels ⟨.user id', 0⟩ virt g i → ¬ OwnedBy id g i := by
  intro g i hx hown
  have ho := (userHalf_walk id' hv g i hx).1
  rcases hown with h | h
  · rw [ho, Owner.user.injEq] at h
    exact hne h
  · rw [ho] at h
    cases h

/-- A walk of an upper-half address reads no entry a call on a user half may write. -/
theorem not_userHalf_upper (id : AddressSpaceId) (o : Owner) {virt : Nat} (hv : ¬ LowerHalf virt) :
    ∀ g i, Vm.walkLabels ⟨o, 0⟩ virt g i → ¬ UserHalf id g i := by
  rintro g i hx ⟨ho, hl⟩
  rcases Tag.mem_labelsAlong_walkPath hx with h | ⟨ho', -⟩
  · cases h
    exact hv (hl rfl)
  · rw [ho', Tag.child_upper o (Nat.not_lt.mp hv)] at ho
    cases ho

/-- A walk from the kernel's root reads no entry a call on a user half may write. -/
theorem not_userHalf_kernel (id : AddressSpaceId) (virt : Nat) :
    ∀ g i, Vm.walkLabels ⟨.kernel, 0⟩ virt g i → ¬ UserHalf id g i := by
  rintro g i hx ⟨ho, -⟩
  rcases Tag.mem_labelsAlong_walkPath hx with h | ⟨ho', -⟩
  · cases h
    cases ho
  · rw [ho', Tag.child_kernel] at ho
    cases ho

/-! ### The manager's calls -/

variable {m m' : AddressSpaceManager} {own : Nat → Option Tag}

theorem lookup_setSpace (m : AddressSpaceManager) (a : AddressSpace) (id : AddressSpaceId) :
    (m.setSpace a).spaces.lookup id = if id = a.id then some a else m.spaces.lookup id := by
  unfold setSpace
  split_ifs with h
  · subst h
    exact Finmap.lookup_insert _
  · exact Finmap.lookup_insert_of_ne _ h

theorem ownedSpace_ok {id : AddressSpaceId} {caller : ThreadId} {a : AddressSpace}
    (h : m.ownedSpace id caller = .ok a) : m.spaces.lookup id = some a ∧ a.owner = caller := by
  unfold ownedSpace at h
  split at h
  · cases h
  · rename_i a' ha
    split_ifs at h with ho
    cases h
    simp only [AddressSpace.isOwnedBy, Bool.not_eq_true', beq_eq_false_iff_ne, ne_eq,
      Decidable.not_not] at ho
    exact ⟨ha, ho⟩

theorem ownedSpace_of_ne_owner {id : AddressSpaceId} {caller : ThreadId} {b : AddressSpace}
    (hb : m.spaces.lookup id = some b) (hc : caller ≠ b.owner) :
    m.ownedSpace id caller = .error .permissionDenied := by
  have ho : b.isOwnedBy caller = false := by simp [AddressSpace.isOwnedBy, Ne.symm hc]
  simp [ownedSpace, hb, ho]

theorem Labelled.setVm (hL : Labelled m own) {R : Tag → Fin ENTRIES_PER_TABLE → Prop} {vm' : Vm}
    {own' : Nat → Option Tag} (hg : Vm.Grows own R m.vm vm' own') :
    Labelled { m with vm := vm' } own' := by
  refine ⟨hg.tables, hg.active ▸ hg.mono _ _ hL.active, fun id a ha => ?_⟩
  obtain ⟨hid, hlt, hroot⟩ := hL.spaces id a ha
  exact ⟨hid, hlt, hg.mono _ _ hroot⟩

/-- Storing again a space of the manager, with its id and its PML4, keeps the labelling. -/
theorem Labelled.setSpace (hL : Labelled m own) {id : AddressSpaceId} {a a' : AddressSpace}
    (ha : m.spaces.lookup id = some a) (hid : a'.id = a.id) (hp : a'.pml4Phys = a.pml4Phys) :
    Labelled (m.setSpace a') own := by
  obtain ⟨haid, hlt, hroot⟩ := hL.spaces id a ha
  refine ⟨hL.tables, hL.active, fun id' a'' ha'' => ?_⟩
  rw [lookup_setSpace] at ha''
  split_ifs at ha'' with h
  · cases ha''
    subst h
    rw [hid, haid, hp]
    exact ⟨rfl, hlt, hroot⟩
  · exact hL.spaces id' a'' ha''

/-- The checks of `map_region` keep the range at or below `USER_CANONICAL_MAX`. -/
theorem mapRegionChecks_end {virtAddr physAddr size : Nat}
    (h : mapRegionChecks virtAddr physAddr size = none) :
    virtAddr + size ≤ USER_CANONICAL_MAX.toNat := by
  have hmax : USER_CANONICAL_MAX.toNat < 2 ^ 64 - 1 := by decide
  unfold mapRegionChecks at h
  split_ifs at h with _ _ _ _ _ hend
  unfold saturatingAdd at hend
  omega

theorem unmapRegionChecks_end {virtAddr size : Nat} (h : unmapRegionChecks virtAddr size = none) :
    virtAddr + size ≤ USER_CANONICAL_MAX.toNat := by
  have hmax : USER_CANONICAL_MAX.toNat < 2 ^ 64 - 1 := by decide
  unfold unmapRegionChecks at h
  split_ifs at h with _ _ _ _ hend
  unfold saturatingAdd at hend
  omega

theorem mapPages_count_le (vm : Vm) (r : Nat) :
    ∀ pages : List (Nat × Nat × UInt64), (vm.mapPages r pages).2.1 ≤ pages.length
  | [] => Nat.zero_le _
  | (virt, phys, flags) :: pages => by
      simp only [Vm.mapPages]
      split
      · exact Nat.zero_le _
      · rename_i vm' _
        have ih := mapPages_count_le vm' r pages
        generalize vm'.mapPages r pages = rest at ih ⊢
        obtain ⟨r', n', vm''⟩ := rest
        simp only [List.length_cons] at ih ⊢
        omega

/-- **`map_region` keeps the labelling, and to the space's user half**: it writes only tables of
the user half of the space it maps into, and keeps every other space. -/
theorem mapRegion_grows (hL : Labelled m own) {id : AddressSpaceId} {caller : ThreadId}
    {virtAddr physAddr size : Nat} {flags : UInt64} {res : Except AddressSpaceError Unit}
    (h : m.mapRegion id caller virtAddr physAddr size flags = (res, m')) :
    ∃ own', Labelled m' own' ∧ Vm.Grows own (UserHalf id) m.vm m'.vm own' ∧
      ∀ id', id' ≠ id → m'.spaces.lookup id' = m.spaces.lookup id' := by
  unfold mapRegion at h
  split at h
  · obtain ⟨-, rfl⟩ := Prod.mk.inj h
    exact ⟨own, hL, .refl hL.tables, fun _ _ => rfl⟩
  · rename_i hchk
    split at h
    · obtain ⟨-, rfl⟩ := Prod.mk.inj h
      exact ⟨own, hL, .refl hL.tables, fun _ _ => rfl⟩
    · rename_i a ha
      obtain ⟨hlook, -⟩ := ownedSpace_ok ha
      obtain ⟨hid, -, hroot⟩ := hL.spaces id a hlook
      have hend := mapRegionChecks_end hchk
      -- the pages of the region, and any prefix of them, lie in the lower half
      have hlow : ∀ k, k < alignUp size / PAGE_SIZE →
          ∀ g i, Vm.walkLabels ⟨.user id, 0⟩ (virtAddr + k * PAGE_SIZE) g i → UserHalf id g i :=
        fun k hk => userHalf_walk id (regionPage_lowerHalf hend hk)
      have hpages : ∀ x ∈ (List.range (alignUp size / PAGE_SIZE)).map (fun i =>
          (virtAddr + i * PAGE_SIZE, physAddr + i * PAGE_SIZE, flags)),
          ∀ g i, Vm.walkLabels ⟨.user id, 0⟩ x.1 g i → UserHalf id g i := by
        intro x hx
        obtain ⟨k, hk, rfl⟩ := List.mem_map.mp hx
        exact hlow k (List.mem_range.mp hk)
      have hother : ∀ (a' : AddressSpace) (vm : Vm), a'.id = a.id → ∀ id', id' ≠ id →
          ({ m with vm }.setSpace a').spaces.lookup id' = m.spaces.lookup id' := by
        intro a' vm ha' id' hne
        rw [lookup_setSpace, if_neg (by rw [ha', hid]; exact hne)]
      dsimp only at h
      split at h
      · rename_i n vm₁ hmap
        obtain ⟨-, rfl⟩ := Prod.mk.inj h
        obtain ⟨own₁, hg₁⟩ := Vm.mapPages_grows rfl hL.tables hroot hpages hmap
        exact ⟨own₁, (hL.setVm hg₁).setSpace hlook rfl rfl, hg₁, hother _ _ rfl⟩
      · rename_i e n vm₁ hmap
        -- the pages mapped before the failure are unmapped again
        have hn : n ≤ alignUp size / PAGE_SIZE := by
          have := mapPages_count_le m.vm a.pml4Phys ((List.range (alignUp size / PAGE_SIZE)).map
            fun i => (virtAddr + i * PAGE_SIZE, physAddr + i * PAGE_SIZE, flags))
          rw [hmap] at this
          simpa using this
        obtain ⟨own₁, hg₁⟩ := Vm.mapPages_grows rfl hL.tables hroot hpages hmap
        generalize hun : vm₁.unmapPages a.pml4Phys (regionPages virtAddr n) = un at h
        obtain ⟨rolledBack, vm₂⟩ := un
        have hg₂ := Vm.unmapPages_grows (hg₁.mono _ _ hroot) rfl hg₁.tables (fun v hv => by
          obtain ⟨k, hk, rfl⟩ := List.mem_map.mp hv
          exact hlow k (Nat.lt_of_lt_of_le (List.mem_range.mp hk) hn)) hun
        have hg := hg₁.trans hg₂
        dsimp only at h
        split_ifs at h
        · obtain ⟨-, rfl⟩ := Prod.mk.inj h
          exact ⟨own₁, (hL.setVm hg).setSpace hlook rfl rfl, hg, hother _ _ rfl⟩
        · obtain ⟨-, rfl⟩ := Prod.mk.inj h
          exact ⟨own₁, hL.setVm hg, hg, fun _ _ => rfl⟩

/-- **`unmap_region` keeps the labelling, and to the space's user half.** -/
theorem unmapRegion_grows (hL : Labelled m own) {id : AddressSpaceId} {caller : ThreadId}
    {virtAddr size : Nat} {res : Except AddressSpaceError Unit}
    (h : m.unmapRegion id caller virtAddr size = (res, m')) :
    ∃ own', Labelled m' own' ∧ Vm.Grows own (UserHalf id) m.vm m'.vm own' ∧
      ∀ id', id' ≠ id → m'.spaces.lookup id' = m.spaces.lookup id' := by
  unfold unmapRegion at h
  split at h
  · obtain ⟨-, rfl⟩ := Prod.mk.inj h
    exact ⟨own, hL, .refl hL.tables, fun _ _ => rfl⟩
  · rename_i hchk
    split at h
    · obtain ⟨-, rfl⟩ := Prod.mk.inj h
      exact ⟨own, hL, .refl hL.tables, fun _ _ => rfl⟩
    · rename_i a ha
      obtain ⟨hlook, -⟩ := ownedSpace_ok ha
      obtain ⟨hid, -, hroot⟩ := hL.spaces id a hlook
      have hend := unmapRegionChecks_end hchk
      obtain ⟨-, rfl⟩ := Prod.mk.inj h
      generalize hun : m.vm.unmapPages a.pml4Phys (regionPages virtAddr (alignUp size / PAGE_SIZE)) = un
      obtain ⟨n, vm₁⟩ := un
      have hg := Vm.unmapPages_grows hroot rfl hL.tables (fun v hv => by
        obtain ⟨k, hk, rfl⟩ := List.mem_map.mp hv
        exact userHalf_walk id (regionPage_lowerHalf hend (List.mem_range.mp hk))) hun
      refine ⟨own, (hL.setVm hg).setSpace hlook rfl rfl, hg, fun id' hne => ?_⟩
      rw [lookup_setSpace, if_neg (by rw [AddressSpace.decMappings, hid]; exact hne)]

/-- **`remap_region` keeps the labelling**, writing only tables of the space it acts on and the
kernel's. -/
theorem remapRegion_grows (hL : Labelled m own) {id : AddressSpaceId} {caller : ThreadId}
    {oldVirt newVirt size : Nat} {res : Except AddressSpaceError Unit}
    (h : m.remapRegion id caller oldVirt newVirt size = (res, m')) :
    ∃ own', Labelled m' own' ∧ Vm.Grows own (OwnedBy id) m.vm m'.vm own' ∧
      m'.spaces = m.spaces := by
  unfold remapRegion at h
  split at h
  · obtain ⟨-, rfl⟩ := Prod.mk.inj h
    exact ⟨own, hL, .refl hL.tables, rfl⟩
  · split at h
    · obtain ⟨-, rfl⟩ := Prod.mk.inj h
      exact ⟨own, hL, .refl hL.tables, rfl⟩
    · rename_i a ha
      obtain ⟨hlook, -⟩ := ownedSpace_ok ha
      obtain ⟨-, -, hroot⟩ := hL.spaces id a hlook
      dsimp only at h
      split at h
      · obtain ⟨-, rfl⟩ := Prod.mk.inj h
        exact ⟨own, hL, .refl hL.tables, rfl⟩
      · rename_i mappings _
        -- the old pages are unmapped from wherever they lie, then mapped at the new range
        generalize hun : m.vm.unmapPages a.pml4Phys (regionPages oldVirt (alignUp size / PAGE_SIZE)) = un at h
        obtain ⟨n, vm₁⟩ := un
        have hg₁ := Vm.unmapPages_grows hroot rfl hL.tables (fun v _ => ownedBy_walk id v) hun
        dsimp only at h
        split at h <;>
        · rename_i vm₂ hmap
          obtain ⟨-, rfl⟩ := Prod.mk.inj h
          obtain ⟨own₂, hg₂⟩ := Vm.mapPages_grows rfl hg₁.tables hroot
            (fun x _ => ownedBy_walk id x.1) hmap
          exact ⟨own₂, hL.setVm (hg₁.trans hg₂), hg₁.trans hg₂, rfl⟩

/-- **`create` keeps the labelling**: the new space's PML4 is a fresh page, the root of its
user half; nothing the labelling names is written. -/
theorem create_grows (hL : Labelled m own) {owner : ThreadId}
    {res : Except AddressSpaceError AddressSpaceId} (h : m.create owner = (res, m')) :
    ∃ own', Labelled m' own' ∧ Vm.Grows own (fun _ _ => False) m.vm m'.vm own' ∧
      ∀ id, id < m.nextId → m'.spaces.lookup id = m.spaces.lookup id := by
  unfold create at h
  split at h
  · obtain ⟨-, rfl⟩ := Prod.mk.inj h
    exact ⟨own, hL, .refl hL.tables, fun _ _ => rfl⟩
  · rename_i p vm₁ halloc
    obtain ⟨hfresh, hpa, hpf, -, hg₁⟩ := hL.tables.alloc (R := fun _ _ => False) halloc
    have hact₁ : own vm₁.activePml4 = some ⟨.kernel, 0⟩ := hg₁.active ▸ hL.active
    split at h
    · -- the clone failed: the page goes back to the free list
      rename_i e vm₂ hclone
      obtain ⟨-, rfl⟩ := Prod.mk.inj h
      rw [Vm.cloneKernelMappings_error hclone]
      have hT := hg₁.tables.freePage hfresh hpa
      have hg : Vm.Grows own (fun _ _ => False) m.vm (vm₁.freePage p) own :=
        ⟨hT, fun _ _ h => h, fun t i hne => hg₁.writes t i (by simpa using hne),
          by simpa using hg₁.active⟩
      exact ⟨own, hL.setVm hg, hg, fun _ _ => rfl⟩
    · rename_i vm₂ hclone
      obtain ⟨-, rfl⟩ := Prod.mk.inj h
      have hg := hg₁.trans (hg₁.tables.clone hfresh hpf hpa hact₁ m.nextId hclone)
      refine ⟨_, ⟨hg.tables, hg.active ▸ hg.mono _ _ hL.active, fun id a ha => ?_⟩, hg,
        fun id hid => Finmap.lookup_insert_of_ne _ (Nat.ne_of_lt hid)⟩
      by_cases hid : id = m.nextId
      · -- the new space, at the id the counter held
        subst hid
        rw [Finmap.lookup_insert, Option.some.injEq] at ha
        subst ha
        exact ⟨rfl, Nat.lt_succ_self _, by simp⟩
      · rw [Finmap.lookup_insert_of_ne _ hid] at ha
        obtain ⟨haid, hlt, hroot⟩ := hL.spaces id a ha
        exact ⟨haid, Nat.lt_succ_of_lt hlt, hg.mono _ _ hroot⟩

/-- **`destroy` keeps the labelling**: the space's PML4 goes back to the free list, without its
label; no entry is written. -/
theorem destroy_labelled (hL : Labelled m own) {id : AddressSpaceId} {caller : ThreadId}
    {res : Except AddressSpaceError Unit} (h : m.destroy id caller = (res, m')) :
    ∃ own', Labelled m' own' ∧ m'.vm.mem = m.vm.mem ∧ m'.vm.activePml4 = m.vm.activePml4 ∧
      ∀ id', id' ≠ id → m'.spaces.lookup id' = m.spaces.lookup id' := by
  unfold destroy at h
  split at h
  · obtain ⟨-, rfl⟩ := Prod.mk.inj h
    exact ⟨own, hL, rfl, rfl, fun _ _ => rfl⟩
  · rename_i a ha
    obtain ⟨hid, -, hroot⟩ := hL.spaces id a ha
    split_ifs at h
    · obtain ⟨-, rfl⟩ := Prod.mk.inj h
      exact ⟨own, hL, rfl, rfl, fun _ _ => rfl⟩
    · obtain ⟨-, rfl⟩ := Prod.mk.inj h
      exact ⟨own, hL, rfl, rfl, fun _ _ => rfl⟩
    · obtain ⟨-, rfl⟩ := Prod.mk.inj h
      have hap : m.vm.activePml4 ≠ a.pml4Phys := by
        intro he
        have h' := hL.active
        rw [he, hroot, Option.some.injEq] at h'
        cases h'
      refine ⟨Function.update own a.pml4Phys none, ⟨hL.tables.freeRoot hroot, ?_, fun id' a' ha' => ?_⟩,
        by simp, by simp, fun id' hne => Finmap.lookup_erase_ne hne⟩
      · simpa [Function.update_of_ne hap] using hL.active
      · have hne : id' ≠ id := by
          rintro rfl
          simp [Finmap.lookup_erase] at ha'
        rw [Finmap.lookup_erase_ne hne] at ha'
        obtain ⟨hid', hlt, hroot'⟩ := hL.spaces id' a' ha'
        -- two spaces have two PML4s: their labels differ
        have hpp : a'.pml4Phys ≠ a.pml4Phys := by
          intro he
          rw [he, hroot, Option.some.injEq, Tag.mk.injEq, Owner.user.injEq] at hroot'
          exact hne hroot'.1.symm
        exact ⟨hid', hlt, by rw [Function.update_of_ne hpp]; exact hroot'⟩

/-! ### A call by another thread -/

section NotOwner

variable {id : AddressSpaceId} {caller : ThreadId} {b : AddressSpace}

theorem mapRegion_of_ne_owner (hb : m.spaces.lookup id = some b) (hc : caller ≠ b.owner)
    (virtAddr physAddr size : Nat) (flags : UInt64) :
    (m.mapRegion id caller virtAddr physAddr size flags).2 = m := by
  unfold mapRegion
  split
  · rfl
  · rw [ownedSpace_of_ne_owner hb hc]

theorem unmapRegion_of_ne_owner (hb : m.spaces.lookup id = some b) (hc : caller ≠ b.owner)
    (virtAddr size : Nat) : (m.unmapRegion id caller virtAddr size).2 = m := by
  unfold unmapRegion
  split
  · rfl
  · rw [ownedSpace_of_ne_owner hb hc]

theorem remapRegion_of_ne_owner (hb : m.spaces.lookup id = some b) (hc : caller ≠ b.owner)
    (oldVirt newVirt size : Nat) : (m.remapRegion id caller oldVirt newVirt size).2 = m := by
  unfold remapRegion
  split
  · rfl
  · rw [ownedSpace_of_ne_owner hb hc]

theorem destroy_of_ne_owner (hb : m.spaces.lookup id = some b) (hc : caller ≠ b.owner) :
    (m.destroy id caller).2 = m := by
  have ho : b.isOwnedBy caller = false := by simp [AddressSpace.isOwnedBy, Ne.symm hc]
  simp [destroy, hb, ho]

end NotOwner

/-! ### Every run -/

theorem labelled_new {free : List Nat} {ram : List (Nat × UInt64)} {vm₀ : Vm}
    (hfree : Vm.FreeList free) (h : (Vm.boot free).init ram = some vm₀) :
    ∃ own, Labelled (new vm₀) own := by
  obtain ⟨own, hT, hact⟩ := Vm.Tables.init hfree h
  exact ⟨own, hT, hact, fun id a ha => by simp [new, Finmap.lookup_empty] at ha⟩

theorem labelled_apply (hL : Labelled m own) (c : Call) : ∃ own', Labelled (m.apply c) own' := by
  cases c with
  | create owner =>
      obtain ⟨own', h, -⟩ := create_grows hL (Prod.mk.eta (p := m.create owner)).symm
      exact ⟨own', h⟩
  | destroy id caller =>
      obtain ⟨own', h, -⟩ := destroy_labelled hL (Prod.mk.eta (p := m.destroy id caller)).symm
      exact ⟨own', h⟩
  | mapRegion id caller virtAddr physAddr size flags =>
      obtain ⟨own', h, -⟩ := mapRegion_grows hL
        (Prod.mk.eta (p := m.mapRegion id caller virtAddr physAddr size flags)).symm
      exact ⟨own', h⟩
  | unmapRegion id caller virtAddr size =>
      obtain ⟨own', h, -⟩ := unmapRegion_grows hL
        (Prod.mk.eta (p := m.unmapRegion id caller virtAddr size)).symm
      exact ⟨own', h⟩
  | remapRegion id caller oldVirt newVirt size =>
      obtain ⟨own', h, -⟩ := remapRegion_grows hL
        (Prod.mk.eta (p := m.remapRegion id caller oldVirt newVirt size)).symm
      exact ⟨own', h⟩

/-- **Every reachable manager has its tables labelled.** -/
theorem labelled_of_reachable (hm : m.IsPmmReachable) : ∃ own, Labelled m own := by
  obtain ⟨free, ram, vm₀, hfree, hinit, hrun⟩ := hm
  refine hrun.induct (P := fun s => ∃ own, Labelled s own) (labelled_new hfree hinit) ?_
  rintro s c s' ⟨own, hL⟩ rfl
  exact labelled_apply hL c

/-- The two spaces of `twoSpaces` come from a boot over a free list `pmm` can hold. -/
theorem twoSpaces_pmmReachable : twoSpaces.IsPmmReachable :=
  ⟨bootFree, bootRam, bootVm, ⟨by decide, by decide⟩, init_bootRam, Reachable.init.run _⟩

/-! ### Isolation -/

/-- **Address spaces are isolated**: in every reachable state, a call other than its owner's call
on a space leaves the space, and every translation of its user half, as they were. -/
theorem translate_userHalf_isolated (hm : m.IsPmmReachable) {id : AddressSpaceId}
    {b : AddressSpace} (hb : m.spaces.lookup id = some b) (c : Call)
    (hc : c.actor ≠ some (id, b.owner)) {virt : Nat} (hv : LowerHalf virt) :
    (m.apply c).spaces.lookup id = some b ∧
      (m.apply c).vm.translate b.pml4Phys virt = m.vm.translate b.pml4Phys virt := by
  obtain ⟨own, hL⟩ := labelled_of_reachable hm
  obtain ⟨-, hlt, hroot⟩ := hL.spaces id b hb
  -- a step that writes nothing the walk through `b`'s user half reads
  have hframe : ∀ {R : Tag → Fin ENTRIES_PER_TABLE → Prop} {vm' : Vm} {own'},
      Vm.Grows own R m.vm vm' own' →
      (∀ g i, Vm.walkLabels ⟨.user id, 0⟩ virt g i → ¬ R g i) →
      vm'.translate b.pml4Phys virt = m.vm.translate b.pml4Phys virt :=
    fun hg hno => hg.translate hL.tables hroot rfl fun x hx => hno x.1 x.2 hx
  -- a call on the space by another thread changes nothing
  have hsame : ∀ {m'' : AddressSpaceManager}, m'' = m →
      m''.spaces.lookup id = some b ∧
        m''.vm.translate b.pml4Phys virt = m.vm.translate b.pml4Phys virt := by
    rintro _ rfl
    exact ⟨hb, rfl⟩
  have hcaller : ∀ caller, some (id, caller) ≠ some (id, b.owner) → caller ≠ b.owner := by
    rintro caller hne rfl
    exact hne rfl
  cases c with
  | create owner =>
      obtain ⟨_, -, hg, hlook⟩ := create_grows hL (Prod.mk.eta (p := m.create owner)).symm
      exact ⟨(hlook id hlt).trans hb, hframe hg fun _ _ _ h => h⟩
  | destroy id' caller =>
      by_cases hid : id' = id
      · subst hid
        exact hsame (destroy_of_ne_owner hb (hcaller caller hc))
      · obtain ⟨_, -, hmem, -, hlook⟩ :=
          destroy_labelled hL (Prod.mk.eta (p := m.destroy id' caller)).symm
        refine ⟨(hlook id (Ne.symm hid)).trans hb, ?_⟩
        simp only [apply, Vm.translate, hmem]
  | mapRegion id' caller virtAddr physAddr size flags =>
      by_cases hid : id' = id
      · subst hid
        exact hsame (mapRegion_of_ne_owner hb (hcaller caller hc) _ _ _ _)
      · obtain ⟨_, -, hg, hlook⟩ := mapRegion_grows hL
          (Prod.mk.eta (p := m.mapRegion id' caller virtAddr physAddr size flags)).symm
        exact ⟨(hlook id (Ne.symm hid)).trans hb, hframe hg fun g i hx hu =>
          not_ownedBy_walk (Ne.symm hid) hv g i hx (.inl hu.1)⟩
  | unmapRegion id' caller virtAddr size =>
      by_cases hid : id' = id
      · subst hid
        exact hsame (unmapRegion_of_ne_owner hb (hcaller caller hc) _ _)
      · obtain ⟨_, -, hg, hlook⟩ := unmapRegion_grows hL
          (Prod.mk.eta (p := m.unmapRegion id' caller virtAddr size)).symm
        exact ⟨(hlook id (Ne.symm hid)).trans hb, hframe hg fun g i hx hu =>
          not_ownedBy_walk (Ne.symm hid) hv g i hx (.inl hu.1)⟩
  | remapRegion id' caller oldVirt newVirt size =>
      by_cases hid : id' = id
      · subst hid
        exact hsame (remapRegion_of_ne_owner hb (hcaller caller hc) _ _ _)
      · obtain ⟨_, -, hg, hspaces⟩ := remapRegion_grows hL
          (Prod.mk.eta (p := m.remapRegion id' caller oldVirt newVirt size)).symm
        refine ⟨?_, hframe hg fun g i hx => not_ownedBy_walk (Ne.symm hid) hv g i hx⟩
        simp only [apply, hspaces, hb]

/-- Thread 3 maps a page of its own space 2 at `0x400000`: space 1 and the translation of
`0x400000` through its PML4 stay as they were. -/
theorem translate_userHalf_isolated_twoSpaces :
    twoSpaces.IsPmmReachable ∧ twoSpaces.spaces.lookup 1 = some ⟨1, 0x10A000, 2, 0⟩ ∧
    (Call.mapRegion 2 3 0x400000 0x5000 PAGE_SIZE PageFlags.USER).actor ≠ some (1, 2) ∧
    LowerHalf 0x400000 ∧
    ((twoSpaces.apply (.mapRegion 2 3 0x400000 0x5000 PAGE_SIZE PageFlags.USER)).spaces.lookup 1 =
        some ⟨1, 0x10A000, 2, 0⟩ ∧
      (twoSpaces.apply (.mapRegion 2 3 0x400000 0x5000 PAGE_SIZE PageFlags.USER)).vm.translate
        0x10A000 0x400000 = twoSpaces.vm.translate 0x10A000 0x400000) := by
  have hb : twoSpaces.spaces.lookup 1 = some ⟨1, 0x10A000, 2, 0⟩ := by decide +kernel
  have hc : (Call.mapRegion 2 3 0x400000 0x5000 PAGE_SIZE PageFlags.USER).actor ≠ some (1, 2) := by
    decide
  have hv : LowerHalf 0x400000 := by decide
  exact ⟨twoSpaces_pmmReachable, hb, hc, hv,
    translate_userHalf_isolated twoSpaces_pmmReachable hb _ hc hv⟩

/-- **The kernel's mappings are kept**: in every reachable state, every call but `remap_region`
keeps the active PML4 and every translation through it, and every translation of the upper half
through every space. -/
theorem translate_kernel_kept (hm : m.IsPmmReachable) (c : Call)
    (hc : ∀ id caller oldVirt newVirt size, c ≠ .remapRegion id caller oldVirt newVirt size) :
    (m.apply c).vm.activePml4 = m.vm.activePml4 ∧
      (∀ virt, (m.apply c).vm.translate m.vm.activePml4 virt =
        m.vm.translate m.vm.activePml4 virt) ∧
      (∀ id a virt, m.spaces.lookup id = some a → ¬ LowerHalf virt →
        (m.apply c).vm.translate a.pml4Phys virt = m.vm.translate a.pml4Phys virt) := by
  obtain ⟨own, hL⟩ := labelled_of_reachable hm
  -- what a step that writes only within one user half keeps
  have hkept : ∀ {id : AddressSpaceId} {vm' : Vm} {own'}, Vm.Grows own (UserHalf id) m.vm vm' own' →
      vm'.activePml4 = m.vm.activePml4 ∧
        (∀ virt, vm'.translate m.vm.activePml4 virt = m.vm.translate m.vm.activePml4 virt) ∧
        (∀ id' a virt, m.spaces.lookup id' = some a → ¬ LowerHalf virt →
          vm'.translate a.pml4Phys virt = m.vm.translate a.pml4Phys virt) := by
    intro id vm' own' hg
    refine ⟨hg.active, fun virt => ?_, fun id' a virt ha hv => ?_⟩
    · exact hg.translate hL.tables hL.active rfl fun x hx => not_userHalf_kernel id virt x.1 x.2 hx
    · obtain ⟨-, -, hroot⟩ := hL.spaces id' a ha
      exact hg.translate hL.tables hroot rfl fun x hx => not_userHalf_upper id _ hv x.1 x.2 hx
  cases c with
  | create owner =>
      obtain ⟨_, -, hg, -⟩ := create_grows hL (Prod.mk.eta (p := m.create owner)).symm
      -- nothing labelled is written: any one user half bounds the writes
      have hg₀ : Vm.Grows own (UserHalf 0) m.vm _ _ := hg.weaken fun _ _ h => h.elim
      exact hkept hg₀
  | destroy id caller =>
      obtain ⟨_, -, hmem, hact, -⟩ :=
        destroy_labelled hL (Prod.mk.eta (p := m.destroy id caller)).symm
      refine ⟨hact, fun virt => ?_, fun _ _ virt _ _ => ?_⟩ <;> simp only [apply, Vm.translate, hmem]
  | mapRegion id caller virtAddr physAddr size flags =>
      obtain ⟨_, -, hg, -⟩ := mapRegion_grows hL
        (Prod.mk.eta (p := m.mapRegion id caller virtAddr physAddr size flags)).symm
      exact hkept hg
  | unmapRegion id caller virtAddr size =>
      obtain ⟨_, -, hg, -⟩ := unmapRegion_grows hL
        (Prod.mk.eta (p := m.unmapRegion id caller virtAddr size)).symm
      exact hkept hg
  | remapRegion id caller oldVirt newVirt size => exact absurd rfl (hc id caller oldVirt newVirt size)

/-- Thread 4 creates a third space: the active PML4 and the kernel half of every space keep
their translations. -/
theorem translate_kernel_kept_twoSpaces :
    twoSpaces.IsPmmReachable ∧
    (∀ id caller oldVirt newVirt size, Call.create 4 ≠ .remapRegion id caller oldVirt newVirt size) ∧
    ((twoSpaces.apply (.create 4)).vm.activePml4 = twoSpaces.vm.activePml4 ∧
      (∀ virt, (twoSpaces.apply (.create 4)).vm.translate twoSpaces.vm.activePml4 virt =
        twoSpaces.vm.translate twoSpaces.vm.activePml4 virt) ∧
      (∀ id a virt, twoSpaces.spaces.lookup id = some a → ¬ LowerHalf virt →
        (twoSpaces.apply (.create 4)).vm.translate a.pml4Phys virt =
          twoSpaces.vm.translate a.pml4Phys virt)) := by
  have hc : ∀ id caller oldVirt newVirt size, Call.create 4 ≠ .remapRegion id caller oldVirt newVirt size :=
    fun _ _ _ _ _ h => Call.noConfusion h
  exact ⟨twoSpaces_pmmReachable, hc, translate_kernel_kept twoSpaces_pmmReachable _ hc⟩

end AddressSpaceManager

end Atom
