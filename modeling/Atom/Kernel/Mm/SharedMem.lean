import Atom.Lib.Align
import Atom.Kernel.Mm.Keeps
import Atom.Kernel.Ipc.System

/-!
# Memory — shared regions

The regions of `kernel/src/shared_mem.rs` with their pages and their mappings, over the paging
state of `vm.rs` (`SharedMem.SharedMemManager`).  A region is created with its size rounded up to
whole pages, each page taken zeroed from `pmm`, and every page taken given back when `pmm` runs
out; it is mapped into a thread's address space one page at a time through `vm::map_page`, and
at the first page that fails the pages mapped before it are unmapped again; it is unmapped; and
its owner destroys it once nobody maps it.  The IPC system's `SharedRegion` is such a region less
its pages and its mappings.

Sizes are `usize`: `align_up` adds before it masks, and wraps to `0` for the sizes within a page
of the top (`toNat_alignUpUsize`), which `SharedRegion::new` then refuses as empty.

* `mapFrames_keeps`: the loop of `SharedRegion::map` changes no translation but at the leaves of
  the pages it maps, and when a page fails, its rollback leaves every translation as it was; the
  empty tables linked in on the way stay.
* `Inv`: in every reachable state, each region's reference count is the number of its mappings,
  with one mapping per thread, and its pages make up its size, a positive multiple of the page
  size; the pages of the regions lie apart from each other, from the page tables and from the
  free list.
* `regions_invariant`: what holds of the regions over every reachable state, and of the calls
  made from it.

The logging, `get_region_info` and `get_stats` are left out; `RegionFlags::from_raw` and `to_raw`
belong to the system call layer.
-/

namespace Atom

open Lib

namespace PageFlags

/-- `PageFlags::NO_EXECUTE`, bit 63. -/
def NO_EXECUTE : UInt64 := 0x8000000000000000

/-- `PageFlags::with_nx`. -/
def withNx (flags : UInt64) : UInt64 := flags ||| NO_EXECUTE

end PageFlags

/-- `pmm::align_up` on a `usize`, whose addition wraps. -/
def alignUpUsize (addr : UInt64) : UInt64 :=
  (addr + PAGE_SIZE.toUInt64 - 1) &&& ~~~(PAGE_SIZE.toUInt64 - 1)

/-- Masking with the complement of the low twelve bits clears them. -/
theorem and_not_lowBits (x : Nat) (hx : x < 2 ^ 64) :
    x &&& (2 ^ 64 - 1 - (2 ^ 12 - 1)) = x / 2 ^ 12 * 2 ^ 12 :=
  Align.and_mask_eq (by decide) hx

/-- `align_up` of a `usize`: the next multiple of the page size, modulo `2 ^ 64`. -/
theorem toNat_alignUpUsize (addr : UInt64) :
    (alignUpUsize addr).toNat = (addr.toNat + (PAGE_SIZE - 1)) % 2 ^ 64 / PAGE_SIZE * PAGE_SIZE := by
  have hadd : addr + PAGE_SIZE.toUInt64 - 1 = addr + 4095 := by
    rw [add_sub_assoc]
    rfl
  have hmask : PAGE_SIZE.toUInt64 - 1 = 4095 := by decide
  rw [alignUpUsize, hadd, hmask, UInt64.toNat_and, UInt64.toNat_not, UInt64.toNat_add]
  have h := and_not_lowBits ((addr.toNat + (4095 : UInt64).toNat) % 2 ^ 64) (Nat.mod_lt _ (by decide))
  simpa [PAGE_SIZE] using h

example : (alignUpUsize 0xFFFFFFFFFFFFF001).toNat / PAGE_SIZE = 0 := by decide

/-- When it rounds to some pages, `align_up` rounds up. -/
theorem le_alignUpUsize {size : UInt64} (h : (alignUpUsize size).toNat / PAGE_SIZE ≠ 0) :
    size.toNat ≤ (alignUpUsize size).toNat ∧ (alignUpUsize size).toNat % PAGE_SIZE = 0 := by
  have hlt := size.toNat_lt
  rw [toNat_alignUpUsize] at h ⊢
  unfold PAGE_SIZE at h ⊢
  omega

namespace SharedMem

/-! ### Regions -/

/-- `RegionFlags`. -/
structure RegionFlags where
  read : Bool
  write : Bool
  execute : Bool
  deriving DecidableEq, Repr

/-- `RegionFlags::to_page_flags`: present, writable when written, not executable unless
executed, and always the user's. -/
def RegionFlags.toPageFlags (f : RegionFlags) : UInt64 :=
  let flags := PageFlags.PRESENT
  let flags := if f.write then flags ||| PageFlags.WRITABLE else flags
  let flags := if !f.execute then PageFlags.withNx flags else flags
  flags ||| PageFlags.USER

/-- `RegionMapping`. -/
structure RegionMapping where
  threadId : ThreadId
  virtAddr : Nat
  flags : RegionFlags
  deriving DecidableEq, Repr

/-- `SharedRegion`. -/
structure SharedRegion where
  id : RegionId
  owner : ThreadId
  size : Nat
  physicalPages : List Nat
  mappings : List RegionMapping
  refCount : Nat
  deriving DecidableEq, Repr

/-- The loop of `SharedRegion::new`: `n` more pages from `pmm::alloc_page_zeroed`, after
`pages`; at the first it cannot give, every page taken is freed again. -/
def allocPages (vm : Vm) (pages : List Nat) : Nat → Option (List Nat) × Vm
  | 0 => (some pages, vm)
  | n + 1 =>
      match vm.allocPageZeroed with
      | some (phys, vm') => allocPages vm' (pages ++ [phys]) n
      | none => (none, pages.foldl Vm.freePage vm)

/-- `SharedRegion::new`. -/
def SharedRegion.new (vm : Vm) (id : RegionId) (owner : ThreadId) (size : UInt64) :
    Except SharedMemError SharedRegion × Vm :=
  let alignedSize := (alignUpUsize size).toNat
  let numPages := alignedSize / PAGE_SIZE
  if numPages = 0 then (.error .invalidSize, vm)
  else
    match allocPages vm [] numPages with
    | (some physicalPages, vm') => (.ok ⟨id, owner, alignedSize, physicalPages, [], 0⟩, vm')
    | (none, vm') => (.error .outOfMemory, vm')

/-- The loop of `SharedRegion::map`: page `i` from `virtAddr` onto each frame of `pages` in turn,
through `vm::map_page`; at the first that fails, the pages before it are unmapped with
`vm::unmap_page` (which walks the active PML4, as the mapping did) and the error returned. -/
def mapFrames (vm : Vm) (virtAddr : Nat) (flags : UInt64) : Nat → List Nat → Except VmError Unit × Vm
  | _, [] => (.ok (), vm)
  | i, phys :: pages =>
      match vm.mapPage (virtAddr + i * PAGE_SIZE) phys flags with
      | (.error e, vm') => (.error e, (vm'.unmapPages vm'.activePml4 (regionPages virtAddr i)).2)
      | (.ok (), vm') => mapFrames vm' virtAddr flags (i + 1) pages

/-- The error `SharedRegion::map` reports for a failed `vm::map_page`. -/
def mapError : VmError → SharedMemError
  | .alreadyMapped => .alreadyMapped
  | .outOfMemory => .outOfMemory
  | _ => .mappingFailed

/-- `SharedRegion::map`. -/
def SharedRegion.map (region : SharedRegion) (vm : Vm) (threadId : ThreadId) (virtAddr : Nat)
    (flags : RegionFlags) : Except SharedMemError SharedRegion × Vm :=
  if !isPageAligned virtAddr then (.error .unaligned, vm)
  else if region.mappings.any (fun m => m.threadId == threadId) then (.error .alreadyMapped, vm)
  else
    match mapFrames vm virtAddr flags.toPageFlags 0 region.physicalPages with
    | (.error e, vm') => (.error (mapError e), vm')
    | (.ok (), vm') =>
        (.ok { region with
            mappings := region.mappings ++ [⟨threadId, virtAddr, flags⟩]
            refCount := region.refCount + 1 }, vm')

/-- `SharedRegion::unmap`: the thread's mapping, the first `position` finds, is removed, and each
of its pages unmapped with `vm::unmap_page`, whatever that returns. -/
def SharedRegion.unmap (region : SharedRegion) (vm : Vm) (threadId : ThreadId) :
    Except SharedMemError SharedRegion × Vm :=
  match region.mappings.find? (fun m => m.threadId == threadId) with
  | none => (.error .notMapped, vm)
  | some mapping =>
      (.ok { region with
          mappings := region.mappings.erase mapping
          refCount := region.refCount - 1 },
        (vm.unmapPages vm.activePml4 (regionPages mapping.virtAddr region.physicalPages.length)).2)

/-- `SharedRegion::can_destroy`. -/
def SharedRegion.canDestroy (region : SharedRegion) : Bool := region.refCount == 0

/-- `SharedRegion::destroy`: every page back to `pmm`. -/
def SharedRegion.destroy (region : SharedRegion) (vm : Vm) : Vm :=
  region.physicalPages.foldl Vm.freePage vm

/-! ### The manager -/

/-- `SharedMemManager`, with the counter of `RegionId::new` and the paging state. -/
structure SharedMemManager where
  regions : Finmap fun _ : RegionId => SharedRegion
  nextRegionId : RegionId
  vm : Vm

namespace SharedMemManager

/-- `SharedMemManager::new`, over a paging state; `RegionId::new` starts at one. -/
def new (vm : Vm) : SharedMemManager := ⟨∅, 1, vm⟩

/-- `SharedMemManager::create_region`: the id is drawn before the region is made. -/
def createRegion (sm : SharedMemManager) (owner : ThreadId) (size : UInt64) :
    Except SharedMemError RegionId × SharedMemManager :=
  let regionId := sm.nextRegionId
  let sm₁ := { sm with nextRegionId := regionId + 1 }
  match SharedRegion.new sm.vm regionId owner size with
  | (.error e, vm') => (.error e, { sm₁ with vm := vm' })
  | (.ok region, vm') =>
      (.ok regionId, { sm₁ with regions := sm.regions.insert regionId region, vm := vm' })

/-- `SharedMemManager::map_region`. -/
def mapRegion (sm : SharedMemManager) (regionId : RegionId) (threadId : ThreadId) (virtAddr : Nat)
    (flags : RegionFlags) : Except SharedMemError Unit × SharedMemManager :=
  match sm.regions.lookup regionId with
  | none => (.error .invalidRegion, sm)
  | some region =>
      match region.map sm.vm threadId virtAddr flags with
      | (.error e, vm') => (.error e, { sm with vm := vm' })
      | (.ok region', vm') => (.ok (), { sm with regions := sm.regions.insert regionId region', vm := vm' })

/-- `SharedMemManager::unmap_region`. -/
def unmapRegion (sm : SharedMemManager) (regionId : RegionId) (threadId : ThreadId) :
    Except SharedMemError Unit × SharedMemManager :=
  match sm.regions.lookup regionId with
  | none => (.error .invalidRegion, sm)
  | some region =>
      match region.unmap sm.vm threadId with
      | (.error e, vm') => (.error e, { sm with vm := vm' })
      | (.ok region', vm') => (.ok (), { sm with regions := sm.regions.insert regionId region', vm := vm' })

/-- `SharedMemManager::destroy_region`. -/
def destroyRegion (sm : SharedMemManager) (regionId : RegionId) (caller : ThreadId) :
    Except SharedMemError Unit × SharedMemManager :=
  match sm.regions.lookup regionId with
  | none => (.error .invalidRegion, sm)
  | some region =>
      if region.owner ≠ caller then (.error .permissionDenied, sm)
      else if !region.canDestroy then (.error .regionInUse, sm)
      else (.ok (), { sm with regions := sm.regions.erase regionId, vm := region.destroy sm.vm })

/-- A call on the regions, by any thread, with any arguments. -/
inductive ShmCall where
  | createRegion (owner : ThreadId) (size : UInt64)
  | mapRegion (regionId : RegionId) (threadId : ThreadId) (virtAddr : Nat) (flags : RegionFlags)
  | unmapRegion (regionId : RegionId) (threadId : ThreadId)
  | destroyRegion (regionId : RegionId) (caller : ThreadId)

/-- The manager after a call, whatever the call returns. -/
def apply (sm : SharedMemManager) : ShmCall → SharedMemManager
  | .createRegion owner size => (sm.createRegion owner size).2
  | .mapRegion regionId threadId virtAddr flags => (sm.mapRegion regionId threadId virtAddr flags).2
  | .unmapRegion regionId threadId => (sm.unmapRegion regionId threadId).2
  | .destroyRegion regionId caller => (sm.destroyRegion regionId caller).2

/-- The managers reachable by calls from the paging state `vm::init` leaves over a free list
`pmm` can hold. -/
def IsReachable (sm : SharedMemManager) : Prop :=
  ∃ free ram vm₀, Vm.FreeList free ∧ (Vm.boot free).init ram = some vm₀ ∧
    Reachable (Det apply) (new vm₀) sm

end SharedMemManager

/-! ### Giving pages back and taking them -/

section Pages

variable {own : Nat → Option Tag}

theorem free_freePage {vm : Vm} {p q : Nat} (h : q ∈ (vm.freePage p).free) : q ∈ vm.free ∨ q = p := by
  unfold Vm.freePage at h
  split_ifs at h
  · simpa using h
  · exact .inl h

/-- Freeing pages leaves the tables and the active PML4, and frees nothing else. -/
theorem foldl_freePage {vm : Vm} :
    ∀ {ps : List Nat}, vm.Tables own → (∀ p ∈ ps, own p = none ∧ Addressable p) →
      (ps.foldl Vm.freePage vm).Tables own ∧
        (ps.foldl Vm.freePage vm).activePml4 = vm.activePml4 ∧
        ∀ q ∈ (ps.foldl Vm.freePage vm).free, q ∈ vm.free ∨ q ∈ ps
  | [], hT, _ => ⟨hT, rfl, fun q hq => .inl hq⟩
  | p :: ps, hT, hps => by
      obtain ⟨hp, hpa⟩ := hps p List.mem_cons_self
      obtain ⟨hT', hact, hfree⟩ := foldl_freePage (hT.freePage hp hpa)
        fun q hq => hps q (List.mem_cons_of_mem p hq)
      refine ⟨hT', hact.trans (Vm.freePage_activePml4 vm p), fun q hq => ?_⟩
      rcases hfree q hq with hq | hq
      · rcases free_freePage hq with hq | rfl
        · exact .inl hq
        · exact .inr List.mem_cons_self
      · exact .inr (List.mem_cons_of_mem p hq)

/-- **The loop of `SharedRegion::new`** takes its pages off the free list of `vm₀` and leaves the
tables labelled; when `pmm` runs out it gives back every page it took. -/
theorem allocPages_spec {vm₀ : Vm} (hT₀ : vm₀.Tables own) :
    ∀ {n : Nat} {pages : List Nat} {vm vm' : Vm} {res : Option (List Nat)}, vm.Tables own →
      vm.activePml4 = vm₀.activePml4 → (∀ p ∈ vm.free, p ∈ vm₀.free) →
      (∀ p ∈ pages, p ∈ vm₀.free ∧ p ∉ vm.free) → allocPages vm pages n = (res, vm') →
      vm'.Tables own ∧ vm'.activePml4 = vm₀.activePml4 ∧ (∀ p ∈ vm'.free, p ∈ vm₀.free) ∧
        ∀ ps, res = some ps → ps.length = pages.length + n ∧ ∀ p ∈ ps, p ∈ vm₀.free ∧ p ∉ vm'.free
  | 0, pages, vm, vm', res, hT, hact, hsub, hpages, h => by
      simp only [allocPages, Prod.mk.injEq] at h
      obtain ⟨rfl, rfl⟩ := h
      exact ⟨hT, hact, hsub, fun ps hps => by cases hps; exact ⟨rfl, hpages⟩⟩
  | n + 1, pages, vm, vm', res, hT, hact, hsub, hpages, h => by
      simp only [allocPages] at h
      split at h
      · rename_i phys vm₁ halloc
        -- one more page, taken off the free list
        obtain ⟨-, -, hpf, -, hg₁⟩ := hT.alloc (R := fun _ _ => True) halloc
        obtain ⟨rest, hfree, rfl⟩ := Vm.allocPageZeroed_eq halloc
        have hsub₁ : ∀ p ∈ rest, p ∈ vm₀.free := fun p hp => hsub p (by simp [hfree, hp])
        have hpages₁ : ∀ p ∈ pages ++ [phys], p ∈ vm₀.free ∧ p ∉ rest := by
          intro p hp
          rcases List.mem_append.mp hp with hp | hp
          · exact ⟨(hpages p hp).1, fun hr => (hpages p hp).2 (by simp [hfree, hr])⟩
          · rw [List.mem_singleton.mp hp]
            exact ⟨hsub phys (by simp [hfree]), hpf⟩
        obtain ⟨hT', hact', hsub', hres⟩ := allocPages_spec hT₀ hg₁.tables hact hsub₁ hpages₁ h
        refine ⟨hT', hact', hsub', fun ps hps => ?_⟩
        obtain ⟨hlen, hps⟩ := hres ps hps
        exact ⟨by rw [hlen, List.length_append, List.length_singleton]; omega, hps⟩
      · -- `pmm` ran out: the pages taken go back
        simp only [Prod.mk.injEq] at h
        obtain ⟨rfl, rfl⟩ := h
        obtain ⟨hT', hact', hfree'⟩ := foldl_freePage hT fun p hp => hT₀.free p (hpages p hp).1
        refine ⟨hT', hact'.trans hact, fun p hp => ?_, fun _ h => by cases h⟩
        rcases hfree' p hp with hp | hp
        · exact hsub p hp
        · exact (hpages p hp).1

/-- **`SharedRegion::new`** takes its pages off the free list and leaves the tables labelled; the
region it makes is valid, no mapping yet, its size at least the size asked for. -/
theorem SharedRegion.new_spec {vm vm' : Vm} (hT : vm.Tables own) {id : RegionId} {owner : ThreadId}
    {size : UInt64} {res : Except SharedMemError SharedRegion}
    (h : SharedRegion.new vm id owner size = (res, vm')) :
    vm'.Tables own ∧ vm'.activePml4 = vm.activePml4 ∧ (∀ p ∈ vm'.free, p ∈ vm.free) ∧
      ∀ region, res = .ok region → region.owner = owner ∧ region.mappings = [] ∧
        region.refCount = 0 ∧ size.toNat ≤ region.size ∧ region.size % PAGE_SIZE = 0 ∧
        region.physicalPages.length * PAGE_SIZE = region.size ∧ 0 < region.size ∧
        ∀ p ∈ region.physicalPages, p ∈ vm.free ∧ p ∉ vm'.free := by
  unfold SharedRegion.new at h
  dsimp only at h
  split_ifs at h with hzero
  · obtain ⟨rfl, rfl⟩ := Prod.mk.inj h
    exact ⟨hT, rfl, fun _ h => h, fun _ h => by cases h⟩
  generalize halloc : allocPages vm [] ((alignUpUsize size).toNat / PAGE_SIZE) = out at h
  obtain ⟨pages, vm₁⟩ := out
  obtain ⟨hT', hact, hsub, hres⟩ :=
    allocPages_spec hT hT rfl (fun _ h => h) (fun _ h => by cases h) halloc
  cases pages with
  | none =>
      obtain ⟨rfl, rfl⟩ := Prod.mk.inj h
      exact ⟨hT', hact, hsub, fun _ h => by cases h⟩
  | some pages =>
      obtain ⟨rfl, rfl⟩ := Prod.mk.inj h
      obtain ⟨hlen, hpages⟩ := hres pages rfl
      obtain ⟨hle, hal⟩ := le_alignUpUsize hzero
      refine ⟨hT', hact, hsub, fun region hr => ?_⟩
      cases hr
      -- the pages make up the rounded size, which is a positive multiple of the page size
      refine ⟨rfl, rfl, rfl, hle, hal, ?_, ?_, hpages⟩
      · dsimp only
        rw [hlen, List.length_nil, Nat.zero_add]
        unfold PAGE_SIZE at hal hzero ⊢
        omega
      · dsimp only
        unfold PAGE_SIZE at hzero
        omega

end Pages

/-! ### Mapping a region -/

theorem regionPages_succ (virtAddr i : Nat) :
    regionPages virtAddr (i + 1) = regionPages virtAddr i ++ [virtAddr + i * PAGE_SIZE] := by
  simp [regionPages, List.range_succ]

section Map

variable {own₀ : Nat → Option Tag} {vm₀ : Vm} {g : Tag} {virtAddr : Nat} {flags : UInt64}

/-- **The loop of `SharedRegion::map`**, from pages mapped through the active PML4 of `vm₀`,
keeps every translation but at the leaves of its pages; when a page fails, its rollback leaves
every translation from a PML4 `own₀` labels as it was in `vm₀`. -/
theorem mapFrames_keeps (hT₀ : vm₀.Tables own₀) (hr : own₀ vm₀.activePml4 = some g)
    (hg : g.level = 0) :
    ∀ {pages : List Nat} {i : Nat} {vm vm' : Vm} {own : Nat → Option Tag}
      {res : Except VmError Unit},
      Vm.Mapped own₀ vm₀ vm₀.activePml4 (regionPages virtAddr i) vm own →
      mapFrames vm virtAddr flags i pages = (res, vm') →
      (∃ own' W, Vm.Keeps own₀ W vm₀ vm' own') ∧
        ∀ e, res = .error e → ∀ r g', own₀ r = some g' → g'.level = 0 → ∀ virt,
          vm'.translate r virt = vm₀.translate r virt
  | [], i, vm, vm', own, res, hm, h => by
      simp only [mapFrames, Prod.mk.injEq] at h
      obtain ⟨rfl, rfl⟩ := h
      exact ⟨⟨own, _, hm.keeps⟩, fun _ h => by cases h⟩
  | phys :: pages, i, vm, vm', own, res, hm, h => by
      have hact : vm.activePml4 = vm₀.activePml4 := hm.keeps.active
      simp only [mapFrames, Vm.mapPage, hact] at h
      split at h
      · rename_i e vm₁ hfail
        -- the page fails: the pages before it are unmapped through the same PML4
        obtain ⟨own₁, hk₁, -⟩ := Vm.mapPageInPml4_keeps hm.keeps.tables (hm.keeps.mono _ g hr) hg hfail
        rw [hk₁.active, hact] at h
        generalize hun : vm₁.unmapPages vm₀.activePml4 (regionPages virtAddr i) = un at h
        obtain ⟨n, vm₂⟩ := un
        obtain ⟨rfl, rfl⟩ := Prod.mk.inj h
        obtain ⟨hk₂, -⟩ := Vm.unmapPages_keeps (hk₁.mono _ g (hm.keeps.mono _ g hr)) hg hk₁.tables hun
        exact ⟨⟨own₁, _, (hm.keeps.trans hk₁).trans hk₂⟩, fun e' _ r g' hr' hg' virt =>
          hm.rollback hT₀ hr hg hfail hun hr' hg' virt⟩
      · rename_i vm₁ hpage
        -- the page is mapped, and the loop goes on with one more
        obtain ⟨own₁, hm₁⟩ := hm.snoc hr hg hpage
        rw [← regionPages_succ] at hm₁
        exact mapFrames_keeps hT₀ hr hg hm₁ h

end Map

/-! ### One region -/

/-- What every region of the manager keeps: its reference count is the number of its mappings,
one per thread; its size is a positive multiple of the page size, made up by its pages. -/
structure SharedRegion.Valid (region : SharedRegion) : Prop where
  refCount : region.refCount = region.mappings.length
  oneMapping : (region.mappings.map RegionMapping.threadId).Nodup
  size_pos : 0 < region.size
  aligned : region.size % PAGE_SIZE = 0
  pages : region.physicalPages.length * PAGE_SIZE = region.size

section Region

variable {own : Nat → Option Tag} {vm vm' : Vm} {g : Tag} {region region' : SharedRegion}
  {threadId : ThreadId}

/-- **`SharedRegion::map` keeps the tables labelled**, and when it fails it leaves every
translation from a labelled PML4 as it was. -/
theorem SharedRegion.map_keeps (hT : vm.Tables own) (hr : own vm.activePml4 = some g)
    (hg : g.level = 0) {virtAddr : Nat} {flags : RegionFlags} {res : Except SharedMemError SharedRegion}
    (h : region.map vm threadId virtAddr flags = (res, vm')) :
    (∃ own' W, Vm.Keeps own W vm vm' own') ∧
      ∀ e, res = .error e → ∀ r g', own r = some g' → g'.level = 0 → ∀ virt,
        vm'.translate r virt = vm.translate r virt := by
  unfold SharedRegion.map at h
  split_ifs at h
  · obtain ⟨rfl, rfl⟩ := Prod.mk.inj h
    exact ⟨⟨own, ∅, .refl hT⟩, fun _ _ _ _ _ _ _ => rfl⟩
  · obtain ⟨rfl, rfl⟩ := Prod.mk.inj h
    exact ⟨⟨own, ∅, .refl hT⟩, fun _ _ _ _ _ _ _ => rfl⟩
  · split at h
    · rename_i e vm₁ hframes
      obtain ⟨rfl, rfl⟩ := Prod.mk.inj h
      obtain ⟨hk, htr⟩ := mapFrames_keeps hT hr hg (Vm.Mapped.nil hT _) hframes
      exact ⟨hk, fun _ _ => htr e rfl⟩
    · rename_i vm₁ hframes
      obtain ⟨rfl, rfl⟩ := Prod.mk.inj h
      exact ⟨(mapFrames_keeps hT hr hg (Vm.Mapped.nil hT _) hframes).1, fun _ h => by cases h⟩

/-- A region `SharedRegion::map` succeeds on had no mapping for the thread, and has one more. -/
theorem SharedRegion.map_ok {virtAddr : Nat} {flags : RegionFlags}
    (h : region.map vm threadId virtAddr flags = (.ok region', vm')) :
    (∀ m ∈ region.mappings, m.threadId ≠ threadId) ∧
      region' = { region with
        mappings := region.mappings ++ [⟨threadId, virtAddr, flags⟩]
        refCount := region.refCount + 1 } := by
  unfold SharedRegion.map at h
  split_ifs at h with hal hany
  · cases h
  · cases h
  · split at h
    · cases h
    · simp only [Prod.mk.injEq, Except.ok.injEq] at h
      exact ⟨by simpa using hany, h.1.symm⟩

theorem SharedRegion.Valid.map (hv : region.Valid) {virtAddr : Nat} {flags : RegionFlags}
    (h : region.map vm threadId virtAddr flags = (.ok region', vm')) : region'.Valid := by
  obtain ⟨hfresh, rfl⟩ := SharedRegion.map_ok h
  refine ⟨by simp [hv.refCount], ?_, hv.size_pos, hv.aligned, hv.pages⟩
  -- the thread had no mapping, so the new one is its only one
  rw [List.map_append, List.nodup_append]
  refine ⟨hv.oneMapping, List.nodup_singleton _, ?_⟩
  intro t ht t' ht'
  obtain ⟨m, hm, rfl⟩ := List.mem_map.mp ht
  rw [List.map_singleton, List.mem_singleton] at ht'
  exact ht' ▸ hfresh m hm

/-- `SharedRegion::unmap` unmaps through the active PML4, and writes nothing but leaves. -/
theorem SharedRegion.unmap_keeps (hT : vm.Tables own) (hr : own vm.activePml4 = some g)
    (hg : g.level = 0) {res : Except SharedMemError SharedRegion}
    (h : region.unmap vm threadId = (res, vm')) : ∃ W, Vm.Keeps own W vm vm' own := by
  unfold SharedRegion.unmap at h
  split at h
  · obtain ⟨rfl, rfl⟩ := Prod.mk.inj h
    exact ⟨∅, .refl hT⟩
  · rename_i mapping _
    obtain ⟨rfl, rfl⟩ := Prod.mk.inj h
    generalize hun : vm.unmapPages vm.activePml4 (regionPages mapping.virtAddr
      region.physicalPages.length) = un
    obtain ⟨n, vm₂⟩ := un
    exact ⟨_, (Vm.unmapPages_keeps hr hg hT hun).1⟩

theorem SharedRegion.unmap_ok (h : region.unmap vm threadId = (.ok region', vm')) :
    ∃ mapping ∈ region.mappings, region' = { region with
      mappings := region.mappings.erase mapping
      refCount := region.refCount - 1 } := by
  unfold SharedRegion.unmap at h
  split at h
  · cases h
  · rename_i mapping hfind
    simp only [Prod.mk.injEq, Except.ok.injEq] at h
    exact ⟨mapping, List.mem_of_find?_eq_some hfind, h.1.symm⟩

theorem SharedRegion.Valid.unmap (hv : region.Valid)
    (h : region.unmap vm threadId = (.ok region', vm')) : region'.Valid := by
  obtain ⟨mapping, hm, rfl⟩ := SharedRegion.unmap_ok h
  refine ⟨by simp [List.length_erase_of_mem hm, hv.refCount], ?_, hv.size_pos, hv.aligned,
    hv.pages⟩
  exact hv.oneMapping.sublist ((List.erase_sublist).map _)

end Region

/-! ### The invariant -/

namespace SharedMemManager

/-- **The invariant of the regions**: the tables are labelled, with the active PML4 the kernel's
root; every region is valid; the pages of the regions are unlabelled, addressable and not free,
and no two regions share one. -/
structure Inv (sm : SharedMemManager) (own : Nat → Option Tag) : Prop where
  tables : sm.vm.Tables own
  active : own sm.vm.activePml4 = some ⟨.kernel, 0⟩
  valid : ∀ id region, sm.regions.lookup id = some region → region.Valid
  pages : ∀ id region, sm.regions.lookup id = some region → ∀ p ∈ region.physicalPages,
    own p = none ∧ Addressable p ∧ p ∉ sm.vm.free
  apart : ∀ id id' region region' p, sm.regions.lookup id = some region →
    sm.regions.lookup id' = some region' → p ∈ region.physicalPages →
    p ∈ region'.physicalPages → id = id'

variable {sm : SharedMemManager} {own own' : Nat → Option Tag}

/-- A run of page operations that labels only free pages and frees none keeps the invariant. -/
theorem Inv.keeps (hI : sm.Inv own) {W : Set (Nat × Fin ENTRIES_PER_TABLE)} {vm' : Vm}
    (hk : Vm.Keeps own W sm.vm vm' own') : Inv { sm with vm := vm' } own' := by
  refine ⟨hk.tables, by rw [hk.active]; exact hk.mono _ _ hI.active, hI.valid,
    fun id region hr p hp => ?_, hI.apart⟩
  obtain ⟨hown, hpa, hfree⟩ := hI.pages id region hr p hp
  refine ⟨?_, hpa, fun h => hfree (hk.freeSub p h)⟩
  -- a page labelled now was labelled before, or free
  cases ho : own' p with
  | none => rfl
  | some g =>
      rcases hk.labels p g ho with h | h
      · rw [hown] at h
        cases h
      · exact absurd h hfree

/-- Storing back a valid region with the same pages keeps the invariant. -/
theorem Inv.insert (hI : sm.Inv own) {id : RegionId} {region region' : SharedRegion}
    (hr : sm.regions.lookup id = some region) (hpages : region'.physicalPages = region.physicalPages)
    (hv : region'.Valid) : Inv { sm with regions := sm.regions.insert id region' } own := by
  -- a region of the new map is the new one, under `id`, or one of the old map
  have hlook : ∀ id' r, (sm.regions.insert id region').lookup id' = some r →
      ∃ r₀, sm.regions.lookup id' = some r₀ ∧ r.physicalPages = r₀.physicalPages ∧
        (r = r₀ ∨ r = region') := by
    intro id' r h
    by_cases hid : id' = id
    · subst hid
      rw [Finmap.lookup_insert, Option.some.injEq] at h
      exact ⟨region, hr, h ▸ hpages, .inr h.symm⟩
    · rw [Finmap.lookup_insert_of_ne _ hid] at h
      exact ⟨r, h, rfl, .inl rfl⟩
  refine ⟨hI.tables, hI.active, fun id' r h => ?_, fun id' r h p hp => ?_,
    fun id₁ id₂ r₁ r₂ p h₁ h₂ hp₁ hp₂ => ?_⟩
  · obtain ⟨r₀, h₀, -, rfl | rfl⟩ := hlook id' r h
    · exact hI.valid id' r h₀
    · exact hv
  · obtain ⟨r₀, h₀, hpp, -⟩ := hlook id' r h
    exact hI.pages id' r₀ h₀ p (hpp ▸ hp)
  · obtain ⟨r₀₁, h₀₁, hpp₁, -⟩ := hlook id₁ r₁ h₁
    obtain ⟨r₀₂, h₀₂, hpp₂, -⟩ := hlook id₂ r₂ h₂
    exact hI.apart id₁ id₂ r₀₁ r₀₂ p h₀₁ h₀₂ (hpp₁ ▸ hp₁) (hpp₂ ▸ hp₂)

theorem Inv.mapRegion (hI : sm.Inv own) (regionId : RegionId) (threadId : ThreadId)
    (virtAddr : Nat) (flags : RegionFlags) :
    ∃ own', (sm.mapRegion regionId threadId virtAddr flags).2.Inv own' := by
  unfold SharedMemManager.mapRegion
  split
  · exact ⟨own, hI⟩
  · rename_i region hr
    generalize hmap : region.map sm.vm threadId virtAddr flags = out
    obtain ⟨res, vm'⟩ := out
    obtain ⟨⟨own', W, hk⟩, -⟩ := SharedRegion.map_keeps hI.tables hI.active rfl hmap
    cases res with
    | error e => exact ⟨own', hI.keeps hk⟩
    | ok region' =>
        exact ⟨own', (hI.keeps hk).insert hr (by rw [(SharedRegion.map_ok hmap).2])
          ((hI.valid _ _ hr).map hmap)⟩

theorem Inv.unmapRegion (hI : sm.Inv own) (regionId : RegionId) (threadId : ThreadId) :
    (sm.unmapRegion regionId threadId).2.Inv own := by
  unfold SharedMemManager.unmapRegion
  split
  · exact hI
  · rename_i region hr
    generalize hunmap : region.unmap sm.vm threadId = out
    obtain ⟨res, vm'⟩ := out
    obtain ⟨W, hk⟩ := SharedRegion.unmap_keeps hI.tables hI.active rfl hunmap
    cases res with
    | error e => exact hI.keeps hk
    | ok region' =>
        obtain ⟨mapping, -, rfl⟩ := SharedRegion.unmap_ok hunmap
        exact (hI.keeps hk).insert hr rfl ((hI.valid _ _ hr).unmap hunmap)

theorem Inv.destroyRegion (hI : sm.Inv own) (regionId : RegionId) (caller : ThreadId) :
    (sm.destroyRegion regionId caller).2.Inv own := by
  unfold SharedMemManager.destroyRegion
  split
  · exact hI
  · rename_i region hr
    split_ifs
    · exact hI
    · exact hI
    -- the region's pages go back to `pmm`; the other regions' pages are not among them
    obtain ⟨hT, hact, hfree⟩ := foldl_freePage hI.tables fun p hp =>
      ⟨(hI.pages _ _ hr p hp).1, (hI.pages _ _ hr p hp).2.1⟩
    have herase : ∀ id r, (sm.regions.erase regionId).lookup id = some r →
        id ≠ regionId ∧ sm.regions.lookup id = some r := by
      intro id r h
      by_cases hid : id = regionId
      · subst hid
        rw [Finmap.lookup_erase] at h
        cases h
      · rw [Finmap.lookup_erase_ne hid] at h
        exact ⟨hid, h⟩
    refine ⟨hT, by rw [SharedRegion.destroy, hact]; exact hI.active,
      fun id r h => hI.valid id r (herase id r h).2, fun id r h p hp => ?_,
      fun id₁ id₂ r₁ r₂ p h₁ h₂ => hI.apart id₁ id₂ r₁ r₂ p (herase _ _ h₁).2 (herase _ _ h₂).2⟩
    obtain ⟨hid, h'⟩ := herase id r h
    obtain ⟨hown, hpa, hnot⟩ := hI.pages id r h' p hp
    refine ⟨hown, hpa, fun hp' => ?_⟩
    rcases hfree p hp' with hp' | hp'
    · exact hnot hp'
    · exact hid (hI.apart id regionId r region p h' hr hp hp')

theorem lookup_insert_some {regions : Finmap fun _ : RegionId => SharedRegion} {id id' : RegionId}
    {region r : SharedRegion} (h : (regions.insert id region).lookup id' = some r) :
    (id' = id ∧ r = region) ∨ (id' ≠ id ∧ regions.lookup id' = some r) := by
  by_cases hid : id' = id
  · subst hid
    rw [Finmap.lookup_insert, Option.some.injEq] at h
    exact .inl ⟨rfl, h.symm⟩
  · rw [Finmap.lookup_insert_of_ne _ hid] at h
    exact .inr ⟨hid, h⟩

theorem Inv.createRegion (hI : sm.Inv own) (owner : ThreadId) (size : UInt64) :
    (sm.createRegion owner size).2.Inv own := by
  unfold SharedMemManager.createRegion
  dsimp only
  generalize hnew : SharedRegion.new sm.vm sm.nextRegionId owner size = out
  obtain ⟨res, vm'⟩ := out
  obtain ⟨hT, hact, hsub, hok⟩ := SharedRegion.new_spec hI.tables hnew
  have hactive : own vm'.activePml4 = some ⟨.kernel, 0⟩ := by rw [hact]; exact hI.active
  -- the pages of the regions there were are still not free
  have hold : ∀ id r, sm.regions.lookup id = some r → ∀ p ∈ r.physicalPages,
      own p = none ∧ Addressable p ∧ p ∉ vm'.free := fun id r h p hp => by
    obtain ⟨hown, hpa, hnot⟩ := hI.pages id r h p hp
    exact ⟨hown, hpa, fun h' => hnot (hsub p h')⟩
  cases res with
  | error e => exact ⟨hT, hactive, hI.valid, hold, hI.apart⟩
  | ok region =>
      show Inv ⟨sm.regions.insert sm.nextRegionId region, sm.nextRegionId + 1, vm'⟩ own
      obtain ⟨-, hmap, hrc, -, hal, hlen, hpos, hpages⟩ := hok region rfl
      have hv : region.Valid := ⟨by rw [hrc, hmap]; rfl, by rw [hmap]; exact List.nodup_nil,
        hpos, hal, hlen⟩
      -- the new region's pages were free, the others' were not
      have hfresh : ∀ id r p, sm.regions.lookup id = some r → p ∈ r.physicalPages →
          p ∉ region.physicalPages := fun id r p h hp hp' =>
        (hI.pages id r h p hp).2.2 (hpages p hp').1
      refine ⟨hT, hactive, fun id r h => ?_, fun id r h p hp => ?_,
        fun id₁ id₂ r₁ r₂ p h₁ h₂ hp₁ hp₂ => ?_⟩
      · rcases lookup_insert_some h with ⟨-, rfl⟩ | ⟨-, h⟩
        · exact hv
        · exact hI.valid id r h
      · rcases lookup_insert_some h with ⟨-, rfl⟩ | ⟨-, h⟩
        · exact ⟨(hI.tables.free p (hpages p hp).1).1, (hI.tables.free p (hpages p hp).1).2,
            (hpages p hp).2⟩
        · exact hold id r h p hp
      · rcases lookup_insert_some h₁ with ⟨rfl, rfl⟩ | ⟨-, h₁'⟩
        · rcases lookup_insert_some h₂ with ⟨rfl, rfl⟩ | ⟨-, h₂'⟩
          · rfl
          · exact absurd hp₁ (hfresh _ _ p h₂' hp₂)
        · rcases lookup_insert_some h₂ with ⟨rfl, rfl⟩ | ⟨-, h₂'⟩
          · exact absurd hp₂ (hfresh _ _ p h₁' hp₁)
          · exact hI.apart id₁ id₂ r₁ r₂ p h₁' h₂' hp₁ hp₂

theorem Inv.apply (hI : sm.Inv own) (c : ShmCall) : ∃ own', (sm.apply c).Inv own' := by
  cases c with
  | createRegion owner size => exact ⟨own, hI.createRegion owner size⟩
  | mapRegion regionId threadId virtAddr flags => exact hI.mapRegion regionId threadId virtAddr flags
  | unmapRegion regionId threadId => exact ⟨own, hI.unmapRegion regionId threadId⟩
  | destroyRegion regionId caller => exact ⟨own, hI.destroyRegion regionId caller⟩

theorem Inv.new {free : List Nat} {ram : List (Nat × UInt64)} {vm₀ : Vm} (hfree : Vm.FreeList free)
    (h : (Vm.boot free).init ram = some vm₀) : ∃ own, (SharedMemManager.new vm₀).Inv own := by
  obtain ⟨own, hT, hact⟩ := Vm.Tables.init hfree h
  have hnone : ∀ id r, (SharedMemManager.new vm₀).regions.lookup id = some r → False :=
    fun id r h => by simp [SharedMemManager.new, Finmap.lookup_empty] at h
  exact ⟨own, hT, hact, fun id r h => (hnone id r h).elim, fun id r h => (hnone id r h).elim,
    fun id _ r _ _ h => (hnone id r h).elim⟩

/-- **Every reachable manager keeps the invariant.** -/
theorem inv_of_reachable (hsm : sm.IsReachable) : ∃ own, sm.Inv own := by
  obtain ⟨free, ram, vm₀, hfree, hinit, hrun⟩ := hsm
  refine hrun.induct (P := fun s => ∃ own, s.Inv own) (Inv.new hfree hinit) ?_
  rintro s c s' ⟨own, hI⟩ rfl
  exact hI.apply c

/-! ### The calls -/

/-- `create_region` that succeeds stores a region under the id it returns, at least as large as
asked. -/
theorem createRegion_ok (hI : sm.Inv own) {owner : ThreadId} {size : UInt64} {id : RegionId}
    (h : (sm.createRegion owner size).1 = .ok id) :
    ∃ region, (sm.createRegion owner size).2.regions.lookup id = some region ∧
      region.owner = owner ∧ size.toNat ≤ region.size := by
  unfold SharedMemManager.createRegion at h ⊢
  dsimp only at h ⊢
  generalize hnew : SharedRegion.new sm.vm sm.nextRegionId owner size = out at h ⊢
  obtain ⟨res, vm'⟩ := out
  obtain ⟨-, -, -, hok⟩ := SharedRegion.new_spec hI.tables hnew
  cases res with
  | error e => cases h
  | ok region =>
      cases h
      obtain ⟨howner, -, -, hle, -⟩ := hok region rfl
      exact ⟨region, Finmap.lookup_insert _, howner, hle⟩

/-- `destroy_region` succeeds only for the owner of a region whose reference count is zero. -/
theorem destroyRegion_ok {regionId : RegionId} {caller : ThreadId}
    (h : (sm.destroyRegion regionId caller).1 = .ok ()) :
    ∃ region, sm.regions.lookup regionId = some region ∧ region.owner = caller ∧
      region.refCount = 0 := by
  unfold SharedMemManager.destroyRegion at h
  split at h
  · cases h
  · rename_i region hr
    -- the two checks that fail are refused at once
    split_ifs at h with howner hcan
    refine ⟨region, hr, not_not.mp howner, ?_⟩
    simpa [SharedRegion.canDestroy] using hcan

/-- **A failed `map_region` leaves the regions and every translation as they were**, the
translations from every labelled PML4; the empty tables it linked in stay. -/
theorem mapRegion_error (hI : sm.Inv own) {regionId : RegionId} {threadId : ThreadId}
    {virtAddr : Nat} {flags : RegionFlags} {e : SharedMemError}
    (h : (sm.mapRegion regionId threadId virtAddr flags).1 = .error e) :
    (sm.mapRegion regionId threadId virtAddr flags).2.regions = sm.regions ∧
      (sm.mapRegion regionId threadId virtAddr flags).2.vm.activePml4 = sm.vm.activePml4 ∧
      ∀ r g, own r = some g → g.level = 0 → ∀ virt,
        (sm.mapRegion regionId threadId virtAddr flags).2.vm.translate r virt =
          sm.vm.translate r virt := by
  unfold SharedMemManager.mapRegion at h ⊢
  split
  · exact ⟨rfl, rfl, fun _ _ _ _ _ => rfl⟩
  · rename_i region hr
    rw [hr] at h
    dsimp only at h
    generalize hmap : region.map sm.vm threadId virtAddr flags = out at h ⊢
    obtain ⟨res, vm'⟩ := out
    obtain ⟨⟨own', W, hk⟩, htr⟩ := SharedRegion.map_keeps hI.tables hI.active rfl hmap
    cases res with
    | error e' =>
        cases h
        exact ⟨rfl, hk.active, htr e rfl⟩
    | ok region' => cases h

/-! ### Every reachable manager -/

/-- **The regions of a reachable manager**: each region's reference count is the number of its
mappings, of which a thread has at most one; its size is a positive multiple of the page size,
which its pages make up, and at least the size asked for when it was created; `destroy_region`
succeeds only for the owner of a region nobody maps; and a `map_region` that fails leaves the
regions, the active PML4 and every translation through it as they were. -/
theorem regions_invariant {sm : SharedMemManager} (hsm : sm.IsReachable) :
    (∀ id region, sm.regions.lookup id = some region →
      region.refCount = region.mappings.length ∧
      (region.mappings.map RegionMapping.threadId).Nodup ∧
      0 < region.size ∧ region.size % PAGE_SIZE = 0 ∧
      region.physicalPages.length * PAGE_SIZE = region.size) ∧
    (∀ owner size id, (sm.createRegion owner size).1 = .ok id →
      ∃ region, (sm.createRegion owner size).2.regions.lookup id = some region ∧
        size.toNat ≤ region.size) ∧
    (∀ regionId caller, (sm.destroyRegion regionId caller).1 = .ok () →
      ∃ region, sm.regions.lookup regionId = some region ∧ region.owner = caller ∧
        region.mappings = []) ∧
    (∀ regionId threadId virtAddr flags e,
      (sm.mapRegion regionId threadId virtAddr flags).1 = .error e →
      (sm.mapRegion regionId threadId virtAddr flags).2.regions = sm.regions ∧
      (sm.mapRegion regionId threadId virtAddr flags).2.vm.activePml4 = sm.vm.activePml4 ∧
      ∀ virt, (sm.mapRegion regionId threadId virtAddr flags).2.vm.translate sm.vm.activePml4 virt =
        sm.vm.translate sm.vm.activePml4 virt) := by
  obtain ⟨own, hI⟩ := inv_of_reachable hsm
  refine ⟨fun id region h => ?_, fun owner size id h => ?_, fun regionId caller h => ?_,
    fun regionId threadId virtAddr flags e h => ?_⟩
  · obtain ⟨h₁, h₂, h₃, h₄, h₅⟩ := hI.valid id region h
    exact ⟨h₁, h₂, h₃, h₄, h₅⟩
  · obtain ⟨region, hr, -, hle⟩ := createRegion_ok hI h
    exact ⟨region, hr, hle⟩
  · obtain ⟨region, hr, howner, hrc⟩ := destroyRegion_ok h
    -- the count is zero, and it counts the mappings
    have hlen : region.mappings.length = 0 := (hI.valid _ _ hr).refCount ▸ hrc
    exact ⟨region, hr, howner, List.length_eq_zero_iff.mp hlen⟩
  · obtain ⟨hregions, hact, htr⟩ := mapRegion_error hI h
    exact ⟨hregions, hact, htr _ _ hI.active rfl⟩

/-- Thread 2 creates a region of two pages over the paging state of `bootVm`. -/
def oneRegion : SharedMemManager :=
  run apply (new AddressSpaceManager.bootVm) [.createRegion 2 0x2000]

theorem oneRegion_reachable : oneRegion.IsReachable :=
  ⟨AddressSpaceManager.bootFree, AddressSpaceManager.bootRam, AddressSpaceManager.bootVm,
    ⟨by decide, by decide⟩, AddressSpaceManager.init_bootRam, Reachable.init.run _⟩

theorem regions_invariant_oneRegion :
    oneRegion.IsReachable ∧
    ((∀ id region, oneRegion.regions.lookup id = some region →
      region.refCount = region.mappings.length ∧
      (region.mappings.map RegionMapping.threadId).Nodup ∧
      0 < region.size ∧ region.size % PAGE_SIZE = 0 ∧
      region.physicalPages.length * PAGE_SIZE = region.size) ∧
    (∀ owner size id, (oneRegion.createRegion owner size).1 = .ok id →
      ∃ region, (oneRegion.createRegion owner size).2.regions.lookup id = some region ∧
        size.toNat ≤ region.size) ∧
    (∀ regionId caller, (oneRegion.destroyRegion regionId caller).1 = .ok () →
      ∃ region, oneRegion.regions.lookup regionId = some region ∧ region.owner = caller ∧
        region.mappings = []) ∧
    (∀ regionId threadId virtAddr flags e,
      (oneRegion.mapRegion regionId threadId virtAddr flags).1 = .error e →
      (oneRegion.mapRegion regionId threadId virtAddr flags).2.regions = oneRegion.regions ∧
      (oneRegion.mapRegion regionId threadId virtAddr flags).2.vm.activePml4 =
        oneRegion.vm.activePml4 ∧
      ∀ virt, (oneRegion.mapRegion regionId threadId virtAddr flags).2.vm.translate
          oneRegion.vm.activePml4 virt = oneRegion.vm.translate oneRegion.vm.activePml4 virt)) :=
  ⟨oneRegion_reachable, regions_invariant oneRegion_reachable⟩

end SharedMemManager

end SharedMem

end Atom
