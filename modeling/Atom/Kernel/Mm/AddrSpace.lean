import Mathlib.Data.Finmap
import Atom.Kernel.Mm.Vm
import Atom.Kernel.Thread.Types
import Atom.Lib.Reach

/-!
# Memory — address spaces

`AddressSpaceManager` of `kernel/src/mm/addrspace.rs`: the address spaces by id, each a PML4 that
`clone_kernel_mappings` gave the kernel half of the active PML4, with its owner and its count of
mapped pages; and the operations that map, unmap and move ranges of pages in them.  The range
checks each operation makes before it looks the space up are stated on their own
(`mapRegionChecks`, `unmapRegionChecks`, `remapRegionChecks`); `remap_region` checks the range it
maps to, and only the alignment of the range it takes pages from.

The manager is a deterministic machine over the paging state `vm::init` leaves (`IsReachable`).

* `remapRegion_twoSpaces`: after boot, two spaces are created, and the owner of the first moves a
  page of the kernel half into its user half; the page is gone from the kernel half of both.
-/

namespace Atom

open Lib

/-- `KERNEL_BASE` of `mm/addrspace.rs`. -/
def KERNEL_BASE : UInt64 := 0xFFFF800000000000

/-- `USER_CANONICAL_MAX` of `mm/addrspace.rs`. -/
def USER_CANONICAL_MAX : UInt64 := 0x00007FFFFFFFFFFF

/-- `MAX_REGION_SIZE`. -/
def MAX_REGION_SIZE : Nat := 256 * 1024 * 1024

/-- `usize::saturating_add`. -/
def saturatingAdd (a b : Nat) : Nat := min (a + b) (2 ^ 64 - 1)

/-- `AddressSpaceId(u64)`. -/
abbrev AddressSpaceId := Nat

/-- `AddressSpace`. -/
structure AddressSpace where
  id : AddressSpaceId
  pml4Phys : Nat
  owner : ThreadId
  mappingCount : Nat
  deriving DecidableEq, Repr

namespace AddressSpace

/-- `AddressSpace::is_owned_by`. -/
def isOwnedBy (a : AddressSpace) (thread : ThreadId) : Bool := a.owner == thread

/-- `AddressSpace::inc_mappings`. -/
def incMappings (a : AddressSpace) (count : Nat) : AddressSpace :=
  { a with mappingCount := a.mappingCount + count }

/-- `AddressSpace::dec_mappings`, a saturating subtraction. -/
def decMappings (a : AddressSpace) (count : Nat) : AddressSpace :=
  { a with mappingCount := a.mappingCount - count }

end AddressSpace

/-- `AddressSpaceError`. -/
inductive AddressSpaceError where
  | notFound
  | outOfMemory
  | permissionDenied
  | invalidAddress
  | invalidSize
  | kernelSpaceViolation
  | inUse
  | alreadyMapped
  | notMapped
  | kernelMappingSetupFailed
  deriving DecidableEq, Repr

/-- `ADDRESS_SPACE_MANAGER`, with the counter of `AddressSpaceId::new` and the paging state the
manager drives. -/
structure AddressSpaceManager where
  spaces : Finmap fun _ : AddressSpaceId => AddressSpace
  nextId : AddressSpaceId
  vm : Vm

/-! ### The page loops -/

/-- The virtual addresses of the first `numPages` pages from `virtAddr`. -/
def regionPages (virtAddr numPages : Nat) : List Nat :=
  (List.range numPages).map fun i => virtAddr + i * PAGE_SIZE

namespace Vm

/-- The loops of `map_region` and `remap_region` that map pages one by one: each
`(virt, phys, flags)` of `pages` through `map_page_in_pml4`, up to the first that fails; with the
number mapped before it. -/
def mapPages (vm : Vm) (pml4Phys : Nat) : List (Nat × Nat × UInt64) → Except VmError Unit × Nat × Vm
  | [] => (.ok (), 0, vm)
  | (virt, phys, flags) :: pages =>
      match vm.mapPageInPml4 pml4Phys virt phys flags with
      | (.error e, vm') => (.error e, 0, vm')
      | (.ok (), vm') =>
          let (r, n, vm'') := mapPages vm' pml4Phys pages
          (r, n + 1, vm'')

/-- The loops that unmap pages one by one and log each failure: the number of pages of `virts`
that `unmap_page_in_pml4` unmapped. -/
def unmapPages (vm : Vm) (pml4Phys : Nat) : List Nat → Nat × Vm
  | [] => (0, vm)
  | virt :: virts =>
      match vm.unmapPageInPml4 pml4Phys virt with
      | (.error _, vm') => unmapPages vm' pml4Phys virts
      | (.ok (), vm') =>
          let (n, vm'') := unmapPages vm' pml4Phys virts
          (n + 1, vm'')

/-- The first loop of `remap_region`: the frame and the flags of each page of `virts`, or `none`
at the first that is not mapped. -/
def queryPages (vm : Vm) (pml4Phys : Nat) (virts : List Nat) : Option (List (Nat × UInt64)) :=
  virts.mapM fun virt => (vm.queryMappingInPml4 pml4Phys virt).toOption

end Vm

namespace AddressSpaceManager

/-- `AddressSpaceManager::new`, over the paging state `vm::init` left. -/
def new (vm : Vm) : AddressSpaceManager := ⟨∅, 1, vm⟩

/-- The manager with the space `a` stored under its id. -/
def setSpace (m : AddressSpaceManager) (a : AddressSpace) : AddressSpaceManager :=
  { m with spaces := m.spaces.insert a.id a }

/-- The space `id`, when it exists and `caller` owns it. -/
def ownedSpace (m : AddressSpaceManager) (id : AddressSpaceId) (caller : ThreadId) :
    Except AddressSpaceError AddressSpace :=
  match m.spaces.lookup id with
  | none => .error .notFound
  | some a => if !a.isOwnedBy caller then .error .permissionDenied else .ok a

/-- `AddressSpace::new` and `AddressSpaceManager::create`: a zeroed PML4 gets the kernel half of
the active one; if that fails the page is freed.  The id is drawn once the space is built. -/
def create (m : AddressSpaceManager) (owner : ThreadId) :
    Except AddressSpaceError AddressSpaceId × AddressSpaceManager :=
  match m.vm.allocPageZeroed with
  | none => (.error .outOfMemory, m)
  | some (pml4Phys, vm₁) =>
      match vm₁.cloneKernelMappings pml4Phys with
      | (.error _, vm₂) => (.error .kernelMappingSetupFailed, { m with vm := vm₂.freePage pml4Phys })
      | (.ok (), vm₂) =>
          let a : AddressSpace := ⟨m.nextId, pml4Phys, owner, 0⟩
          (.ok a.id, { m with spaces := m.spaces.insert a.id a, nextId := m.nextId + 1, vm := vm₂ })

/-- `AddressSpaceManager::destroy`: the owner removes a space with no mapped page, and dropping
it frees its PML4. -/
def destroy (m : AddressSpaceManager) (id : AddressSpaceId) (caller : ThreadId) :
    Except AddressSpaceError Unit × AddressSpaceManager :=
  match m.spaces.lookup id with
  | none => (.error .notFound, m)
  | some a =>
      if !a.isOwnedBy caller then (.error .permissionDenied, m)
      else if a.mappingCount > 0 then (.error .inUse, m)
      else (.ok (), { m with spaces := m.spaces.erase id, vm := m.vm.freePage a.pml4Phys })

/-- The checks `map_region` makes on its arguments, in its order. -/
def mapRegionChecks (virtAddr physAddr size : Nat) : Option AddressSpaceError :=
  if !isPageAligned virtAddr || !isPageAligned physAddr then some .invalidAddress
  else if size = 0 then some .invalidSize
  else if size > MAX_REGION_SIZE then some .invalidSize
  else if virtAddr > USER_CANONICAL_MAX.toNat then some .invalidAddress
  else if virtAddr ≥ KERNEL_BASE.toNat then some .kernelSpaceViolation
  else if saturatingAdd virtAddr size > USER_CANONICAL_MAX.toNat then some .invalidSize
  else if saturatingAdd virtAddr size > KERNEL_BASE.toNat then some .kernelSpaceViolation
  else none

/-- `AddressSpaceManager::map_region`: the pages of the region are mapped one by one; when one
fails, those mapped before it are unmapped again, the ones that stay mapped are counted, and the
call fails with `AlreadyMapped` whatever the failure was. -/
def mapRegion (m : AddressSpaceManager) (id : AddressSpaceId) (caller : ThreadId)
    (virtAddr physAddr size : Nat) (flags : UInt64) : Except AddressSpaceError Unit × AddressSpaceManager :=
  match mapRegionChecks virtAddr physAddr size with
  | some e => (.error e, m)
  | none =>
      match m.ownedSpace id caller with
      | .error e => (.error e, m)
      | .ok a =>
          let numPages := alignUp size / PAGE_SIZE
          let pages := (List.range numPages).map fun i =>
            (virtAddr + i * PAGE_SIZE, physAddr + i * PAGE_SIZE, flags)
          match m.vm.mapPages a.pml4Phys pages with
          | (.ok (), mappedPages, vm) => (.ok (), { m with vm }.setSpace (a.incMappings mappedPages))
          | (.error _, mappedPages, vm) =>
              let (rolledBack, vm') := vm.unmapPages a.pml4Phys (regionPages virtAddr mappedPages)
              let remaining := mappedPages - rolledBack
              let m' := { m with vm := vm' }
              (.error .alreadyMapped, if remaining > 0 then m'.setSpace (a.incMappings remaining) else m')

/-- The checks `unmap_region` makes on its arguments, in its order. -/
def unmapRegionChecks (virtAddr size : Nat) : Option AddressSpaceError :=
  if !isPageAligned virtAddr then some .invalidAddress
  else if virtAddr > USER_CANONICAL_MAX.toNat then some .invalidAddress
  else if size = 0 then some .invalidSize
  else if virtAddr ≥ KERNEL_BASE.toNat then some .kernelSpaceViolation
  else if saturatingAdd virtAddr size > USER_CANONICAL_MAX.toNat then some .invalidSize
  else if saturatingAdd virtAddr size > KERNEL_BASE.toNat then some .kernelSpaceViolation
  else none

/-- `AddressSpaceManager::unmap_region`: every page of the region is unmapped, failures are only
logged, and the count drops by the number of pages of the region. -/
def unmapRegion (m : AddressSpaceManager) (id : AddressSpaceId) (caller : ThreadId)
    (virtAddr size : Nat) : Except AddressSpaceError Unit × AddressSpaceManager :=
  match unmapRegionChecks virtAddr size with
  | some e => (.error e, m)
  | none =>
      match m.ownedSpace id caller with
      | .error e => (.error e, m)
      | .ok a =>
          let numPages := alignUp size / PAGE_SIZE
          let vm := (m.vm.unmapPages a.pml4Phys (regionPages virtAddr numPages)).2
          (.ok (), { m with vm }.setSpace (a.decMappings numPages))

/-- The checks `remap_region` makes on its arguments, in its order: the range it maps to is kept
below `KERNEL_BASE`, the range it takes the pages from only aligned. -/
def remapRegionChecks (oldVirt newVirt size : Nat) : Option AddressSpaceError :=
  if !isPageAligned oldVirt || !isPageAligned newVirt then some .invalidAddress
  else if size = 0 then some .invalidSize
  else if newVirt ≥ KERNEL_BASE.toNat ∨ saturatingAdd newVirt size > KERNEL_BASE.toNat then
    some .kernelSpaceViolation
  else none

/-- `AddressSpaceManager::remap_region`: the frame and flags of every page of the old range are
read (all must be mapped), every old page is unmapped, failures only logged, and the frames are
mapped at the new range in order; a failure there ends the call with `AlreadyMapped`. -/
def remapRegion (m : AddressSpaceManager) (id : AddressSpaceId) (caller : ThreadId)
    (oldVirt newVirt size : Nat) : Except AddressSpaceError Unit × AddressSpaceManager :=
  match remapRegionChecks oldVirt newVirt size with
  | some e => (.error e, m)
  | none =>
      match m.ownedSpace id caller with
      | .error e => (.error e, m)
      | .ok a =>
          let numPages := alignUp size / PAGE_SIZE
          match m.vm.queryPages a.pml4Phys (regionPages oldVirt numPages) with
          | none => (.error .notMapped, m)
          | some mappings =>
              let vm₁ := (m.vm.unmapPages a.pml4Phys (regionPages oldVirt numPages)).2
              let pages := List.zipWith (fun virt (mapping : Nat × UInt64) => (virt, mapping.1, mapping.2))
                (regionPages newVirt numPages) mappings
              match vm₁.mapPages a.pml4Phys pages with
              | (.error _, _, vm₂) => (.error .alreadyMapped, { m with vm := vm₂ })
              | (.ok (), _, vm₂) => (.ok (), { m with vm := vm₂ })

/-! ### Runs -/

/-- What moves the manager. -/
inductive Call where
  | create (owner : ThreadId)
  | destroy (id : AddressSpaceId) (caller : ThreadId)
  | mapRegion (id : AddressSpaceId) (caller : ThreadId) (virtAddr physAddr size : Nat) (flags : UInt64)
  | unmapRegion (id : AddressSpaceId) (caller : ThreadId) (virtAddr size : Nat)
  | remapRegion (id : AddressSpaceId) (caller : ThreadId) (oldVirt newVirt size : Nat)

/-- The manager after a call, whatever the call returns. -/
def apply (m : AddressSpaceManager) : Call → AddressSpaceManager
  | .create owner => (m.create owner).2
  | .destroy id caller => (m.destroy id caller).2
  | .mapRegion id caller virtAddr physAddr size flags =>
      (m.mapRegion id caller virtAddr physAddr size flags).2
  | .unmapRegion id caller virtAddr size => (m.unmapRegion id caller virtAddr size).2
  | .remapRegion id caller oldVirt newVirt size => (m.remapRegion id caller oldVirt newVirt size).2

end AddressSpaceManager

/-- Physical memory before boot: no table, and the pages `pmm` has free. -/
def Vm.boot (free : List Nat) : Vm := ⟨fun _ _ => 0, free, 0⟩

namespace AddressSpaceManager

/-- The managers reachable by calls from the paging state `vm::init` leaves, for some free pages
and some RAM. -/
def IsReachable (m : AddressSpaceManager) : Prop :=
  ∃ free ram vm₀, (Vm.boot free).init ram = some vm₀ ∧ Reachable (Det apply) (new vm₀) m

/-! ### A page of the kernel half moved out -/

/-- Thirty-two free pages from `0x100000`. -/
def bootFree : List Nat := (List.range 32).map fun i => 0x100000 + i * PAGE_SIZE

/-- One page of RAM at `0x5000`, mapped read-write for the kernel. -/
def bootRam : List (Nat × UInt64) := [(0x5000, PageFlags.kernelRw)]

/-- The paging state `vm::init` leaves: the page at `0x5000` is identity-mapped and mirrored at
`HIGHER_HALF_BASE + 0x5000`. -/
def bootVm : Vm := ((Vm.boot bootFree).init bootRam).getD (Vm.boot bootFree)

theorem init_bootRam : (Vm.boot bootFree).init bootRam = some bootVm := by
  -- `vm::init` finds a page for the PML4
  have h : ((Vm.boot bootFree).init bootRam).isSome = true := by decide
  unfold bootVm
  revert h
  cases (Vm.boot bootFree).init bootRam <;> simp

/-- Two spaces, the first owned by thread 2, the second by thread 3. -/
def twoSpaces : AddressSpaceManager := run apply (new bootVm) [.create 2, .create 3]

theorem twoSpaces_reachable : twoSpaces.IsReachable :=
  ⟨bootFree, bootRam, bootVm, init_bootRam, Reachable.init.run _⟩

/-- The owner of space 1 moves the page at `KERNEL_BASE + 0x5000` to `0x400000`.  Every check of
`remap_region` passes; the page is gone from the kernel half of space 2 and of the active PML4,
and space 1 maps it in its user half. -/
theorem remapRegion_twoSpaces :
    twoSpaces.IsReachable ∧
    (twoSpaces.spaces.lookup 1).map (fun a => (a.owner, a.pml4Phys)) = some (2, 0x10A000) ∧
    (twoSpaces.spaces.lookup 2).map (fun a => (a.owner, a.pml4Phys)) = some (3, 0x10B000) ∧
    twoSpaces.vm.translate 0x10B000 (KERNEL_BASE.toNat + 0x5000) = some 0x5103 ∧
    twoSpaces.vm.translate twoSpaces.vm.activePml4 (KERNEL_BASE.toNat + 0x5000) = some 0x5103 ∧
    (twoSpaces.remapRegion 1 2 (KERNEL_BASE.toNat + 0x5000) 0x400000 PAGE_SIZE).1 = .ok () ∧
    (twoSpaces.remapRegion 1 2 (KERNEL_BASE.toNat + 0x5000) 0x400000 PAGE_SIZE).2.vm.translate
      0x10B000 (KERNEL_BASE.toNat + 0x5000) = none ∧
    (twoSpaces.remapRegion 1 2 (KERNEL_BASE.toNat + 0x5000) 0x400000 PAGE_SIZE).2.vm.translate
      twoSpaces.vm.activePml4 (KERNEL_BASE.toNat + 0x5000) = none ∧
    (twoSpaces.remapRegion 1 2 (KERNEL_BASE.toNat + 0x5000) 0x400000 PAGE_SIZE).2.vm.translate
      0x10A000 0x400000 = some 0x5103 := by
  -- one kernel evaluation of the run serves every conjunct
  refine ⟨twoSpaces_reachable, ?_⟩
  decide +kernel

end AddressSpaceManager

end Atom
