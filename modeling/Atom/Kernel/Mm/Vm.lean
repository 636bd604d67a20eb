import Atom.Lib.Walk
import Mathlib.Algebra.Group.Nat.Defs

/-!
# Memory — page tables

The four-level page tables of `kernel/src/mm/vm.rs`.  Physical memory is seen as the table each
page holds (`PhysMem`): 512 raw `u64` entries, of which a present one points at the next table.
`split_indices` cuts a virtual address into the PML4, PDPT and PD indices the walk follows
(`walkPath`) and the index of the leaf entry in the page table (`leafIndex`).  The page allocator
`pmm` hands out the pages of its free list, zeroed (`allocPageZeroed`).

`walk_to_entry_with_root_user` is `walkTables` along `walkPath`: at each level
`ensure_table_user` follows a present entry (setting its `USER` bit when a user page is being
mapped) or, when asked to create, puts a fresh table there.  A level that fails ends the walk and
keeps what the levels before it wrote.  A walk that may neither create nor promote reads the
hierarchy and writes nothing; it is `Walk.tableAt` of the library.

* `walkTables_read`: the read-only walk is the library's walk.
* `unmapPageInPml4_eq`: `unmap_page_in_pml4` clears the leaf of the walk and nothing else.

The `MAPPED_PAGES` and `PAGE_TABLE_PAGES` counters and the TLB (`invalidate_page`) are left out:
no modelled function reads them.
-/

namespace Atom

open Lib

/-- `pmm::PAGE_SIZE`. -/
def PAGE_SIZE : Nat := 4096

/-- `pmm::is_page_aligned`. -/
def isPageAligned (addr : Nat) : Bool := addr % PAGE_SIZE == 0

/-- `pmm::align_up`. -/
def alignUp (addr : Nat) : Nat := (addr + PAGE_SIZE - 1) / PAGE_SIZE * PAGE_SIZE

/-- A physical page an entry can point at: page-aligned, within the 52 address bits of an
entry. -/
def Addressable (p : Nat) : Prop := p % PAGE_SIZE = 0 ∧ p < 2 ^ 52

instance (p : Nat) : Decidable (Addressable p) :=
  inferInstanceAs (Decidable (p % PAGE_SIZE = 0 ∧ p < 2 ^ 52))

/-- `ENTRIES_PER_TABLE`. -/
def ENTRIES_PER_TABLE : Nat := 512

/-- `ADDR_MASK`. -/
def ADDR_MASK : UInt64 := 0x000FFFFFFFFFF000

/-- `HIGHER_HALF_BASE`. -/
def HIGHER_HALF_BASE : Nat := 0xFFFF800000000000

/-- `HIGHER_HALF_MIRROR_SIZE`. -/
def HIGHER_HALF_MIRROR_SIZE : Nat := 512 * 1024 * 1024

/-- `VmError`. -/
inductive VmError where
  | notInitialized
  | unaligned
  | alreadyMapped
  | notMapped
  | outOfMemory
  deriving DecidableEq, Repr

/-! ### Entries -/

namespace PageFlags

/-- `PageFlags::PRESENT`. -/
def PRESENT : UInt64 := 1
/-- `PageFlags::WRITABLE`. -/
def WRITABLE : UInt64 := 2
/-- `PageFlags::USER`. -/
def USER : UInt64 := 4
/-- `PageFlags::WRITE_THROUGH`. -/
def WRITE_THROUGH : UInt64 := 8
/-- `PageFlags::CACHE_DISABLE`. -/
def CACHE_DISABLE : UInt64 := 16
/-- `PageFlags::GLOBAL`. -/
def GLOBAL : UInt64 := 0x100

/-- `PageFlags::kernel_rw`. -/
def kernelRw : UInt64 := PRESENT ||| WRITABLE ||| GLOBAL

end PageFlags

namespace PageTableEntry

/-- `PageTableEntry::is_present`. -/
def isPresent (e : UInt64) : Bool := e &&& PageFlags.PRESENT != 0

/-- `PageTableEntry::addr`. -/
def addr (e : UInt64) : Nat := (e &&& ADDR_MASK).toNat

/-- The value `PageTableEntry::set` stores. -/
def set (addr : Nat) (flags : UInt64) : UInt64 := (addr.toUInt64 &&& ADDR_MASK) ||| flags

/-- The table a present entry points at, as a walk follows it. -/
def next (e : UInt64) : Option Nat := if isPresent e then some (addr e) else none

@[simp] theorem isPresent_zero : isPresent 0 = false := by decide

@[simp] theorem next_zero : next 0 = none := by decide

theorem and_or_distrib (x y z : UInt64) : (x ||| y) &&& z = (x &&& z) ||| (y &&& z) :=
  UInt64.toNat_inj.mp (by simp only [UInt64.toNat_and, UInt64.toNat_or, Nat.and_or_distrib_right])

/-- The address bits of an addressable page are the page itself. -/
theorem and_addrMask {p : Nat} (hp : Addressable p) : p &&& ADDR_MASK.toNat = p := by
  obtain ⟨hal, hlt⟩ := hp
  obtain ⟨q, rfl⟩ : ∃ q, p = q <<< 12 := ⟨p / 4096, by
    rw [Nat.shiftLeft_eq]; unfold PAGE_SIZE at hal; omega⟩
  have hq : q < 2 ^ 40 := by rw [Nat.shiftLeft_eq] at hlt; omega
  have hm : ADDR_MASK.toNat = (2 ^ 40 - 1) <<< 12 := by decide
  rw [hm, ← Nat.shiftLeft_and_distrib, Nat.and_two_pow_sub_one_of_lt_two_pow hq]

theorem addr_or {x flags : UInt64} (hf : flags &&& ADDR_MASK = 0) : addr (x ||| flags) = addr x := by
  rw [addr, addr, and_or_distrib, hf, UInt64.or_zero]

theorem isPresent_or {x flags : UInt64} (hf : flags &&& PageFlags.PRESENT = 0) :
    isPresent (x ||| flags) = isPresent x := by
  rw [isPresent, isPresent, and_or_distrib, hf, UInt64.or_zero]

theorem isPresent_or_present {x flags : UInt64}
    (hf : flags &&& PageFlags.PRESENT = PageFlags.PRESENT) : isPresent (x ||| flags) = true := by
  have hle : PageFlags.PRESENT ≤ (x &&& PageFlags.PRESENT) ||| PageFlags.PRESENT :=
    UInt64.right_le_or
  rw [isPresent, and_or_distrib, hf, bne_iff_ne]
  intro h
  rw [h] at hle
  exact absurd hle (by decide)

/-- Setting the `USER` bit of an entry leaves where it points. -/
theorem next_or_user (e : UInt64) : next (e ||| PageFlags.USER) = next e := by
  rw [next, next, isPresent_or (by decide), addr_or (by decide)]

theorem addr_set {p : Nat} (hp : Addressable p) {flags : UInt64} (hf : flags &&& ADDR_MASK = 0) :
    addr (set p flags) = p := by
  have hlt : p < 2 ^ 52 := hp.2
  have hp64 : p % 2 ^ 64 = p := Nat.mod_eq_of_lt (by omega)
  rw [set, addr_or hf, addr, UInt64.and_assoc, UInt64.and_self]
  simp only [UInt64.toNat_and, Nat.toUInt64_eq, UInt64.toNat_ofNat', hp64, and_addrMask hp]

/-- An entry `set` to an addressable page with present flags that leave the address bits clear
points at that page. -/
theorem next_set {p : Nat} (hp : Addressable p) {flags : UInt64} (hf : flags &&& ADDR_MASK = 0)
    (hpres : flags &&& PageFlags.PRESENT = PageFlags.PRESENT) : next (set p flags) = some p := by
  rw [next, set, isPresent_or_present hpres, if_pos rfl, ← set, addr_set hp hf]

end PageTableEntry

/-- The tables of physical memory: the 512 entries of the table at each physical page. -/
abbrev PhysMem := Nat → Fin ENTRIES_PER_TABLE → UInt64

/-- An index of a table: nine bits of a virtual address, from bit `shift` up. -/
def tableIndex (virt shift : Nat) : Fin ENTRIES_PER_TABLE :=
  ⟨(virt >>> shift) &&& 0x1FF, Nat.lt_of_le_of_lt Nat.and_le_right (by decide)⟩

/-- `split_indices`: the PML4, PDPT, PD and PT indices of a virtual address. -/
def splitIndices (virt : Nat) :
    Fin ENTRIES_PER_TABLE × Fin ENTRIES_PER_TABLE × Fin ENTRIES_PER_TABLE × Fin ENTRIES_PER_TABLE :=
  (tableIndex virt 39, tableIndex virt 30, tableIndex virt 21, tableIndex virt 12)

/-- The indices a walk for `virt` follows through the PML4, the PDPT and the PD. -/
def walkPath (virt : Nat) : List (Fin ENTRIES_PER_TABLE) :=
  [(splitIndices virt).1, (splitIndices virt).2.1, (splitIndices virt).2.2.1]

/-- The index of `virt`'s entry in its page table. -/
def leafIndex (virt : Nat) : Fin ENTRIES_PER_TABLE := (splitIndices virt).2.2.2

/-! ### The paging state -/

/-- The page tables in physical memory, the free pages of `pmm`, and `ACTIVE_PML4`. -/
structure Vm where
  mem : PhysMem
  /-- The pages `pmm::alloc_page` hands out, in the order it hands them out. -/
  free : List Nat
  activePml4 : Nat

namespace Vm

/-- The paging state after the entry at index `i` of table `t` is set to `e`. -/
def write (vm : Vm) (t : Nat) (i : Fin ENTRIES_PER_TABLE) (e : UInt64) : Vm :=
  { vm with mem := Walk.write vm.mem t i e }

/-- `pmm::alloc_page_zeroed`: the first free page, zeroed. -/
def allocPageZeroed (vm : Vm) : Option (Nat × Vm) :=
  match vm.free with
  | [] => none
  | p :: rest => some (p, { vm with mem := Function.update vm.mem p fun _ => 0, free := rest })

/-- `pmm::free_page`: an aligned page that is not free already becomes free. -/
def freePage (vm : Vm) (addr : Nat) : Vm :=
  if addr % PAGE_SIZE = 0 ∧ addr ∉ vm.free then { vm with free := vm.free ++ [addr] } else vm

/-- `ensure_table_user`: the table the entry at index `i` of table `t` points at.  A present entry
is followed, and gets the `USER` bit when a user page is being mapped through it; an absent one
is an error unless `create`, when a zeroed page is allocated and linked in. -/
def ensureTableUser (vm : Vm) (t : Nat) (i : Fin ENTRIES_PER_TABLE) (create userAccess : Bool) :
    Except VmError (Nat × Vm) :=
  let entry := vm.mem t i
  if PageTableEntry.isPresent entry then
    if userAccess && entry &&& PageFlags.USER == 0 then
      .ok (PageTableEntry.addr entry, vm.write t i (entry ||| PageFlags.USER))
    else .ok (PageTableEntry.addr entry, vm)
  else if !create then .error .notMapped
  else
    match vm.allocPageZeroed with
    | none => .error .outOfMemory
    | some (phys, vm') =>
        let tableFlags :=
          if userAccess then PageFlags.PRESENT ||| PageFlags.WRITABLE ||| PageFlags.USER
          else PageFlags.PRESENT ||| PageFlags.WRITABLE
        .ok (phys, vm'.write t i (PageTableEntry.set phys tableFlags))

/-- The levels of `walk_to_entry_with_root_user`: `ensure_table_user` at each index of `path`
from table `t`; the first level that fails ends the walk, keeping what the levels before it
wrote. -/
def walkTables (create userAccess : Bool) : Vm → Nat → List (Fin ENTRIES_PER_TABLE) → Except VmError Nat × Vm
  | vm, t, [] => (.ok t, vm)
  | vm, t, i :: path =>
      match vm.ensureTableUser t i create userAccess with
      | .error e => (.error e, vm)
      | .ok (t', vm') => walkTables create userAccess vm' t' path

/-- `walk_to_entry_with_root_user`: the location, table and index, of `virt`'s leaf entry in the
hierarchy rooted at `pml4Phys`. -/
def walkToEntryWithRootUser (vm : Vm) (pml4Phys virt : Nat) (create userAccess : Bool) :
    Except VmError (Nat × Fin ENTRIES_PER_TABLE) × Vm :=
  match walkTables create userAccess vm pml4Phys (walkPath virt) with
  | (.ok pt, vm') => (.ok (pt, leafIndex virt), vm')
  | (.error e, vm') => (.error e, vm')

/-- `map_page_internal`. -/
def mapPageInternal (vm : Vm) (pml4Phys virt phys : Nat) (flags : UInt64) : Except VmError Unit × Vm :=
  if !isPageAligned virt || !isPageAligned phys then (.error .unaligned, vm)
  else
    let userAccess := flags &&& PageFlags.USER != 0
    match vm.walkToEntryWithRootUser pml4Phys virt true userAccess with
    | (.error e, vm') => (.error e, vm')
    | (.ok (pt, i), vm') =>
        if PageTableEntry.isPresent (vm'.mem pt i) then (.error .alreadyMapped, vm')
        else (.ok (), vm'.write pt i (PageTableEntry.set phys flags))

/-- `map_page_in_pml4`. -/
def mapPageInPml4 (vm : Vm) (pml4Phys virt phys : Nat) (flags : UInt64) : Except VmError Unit × Vm :=
  if !isPageAligned virt || !isPageAligned phys then (.error .unaligned, vm)
  else if pml4Phys = 0 then (.error .notInitialized, vm)
  else vm.mapPageInternal pml4Phys virt phys flags

/-- `unmap_page_in_pml4`. -/
def unmapPageInPml4 (vm : Vm) (pml4Phys virt : Nat) : Except VmError Unit × Vm :=
  if !isPageAligned virt then (.error .unaligned, vm)
  else if pml4Phys = 0 then (.error .notInitialized, vm)
  else
    match vm.walkToEntryWithRootUser pml4Phys virt false false with
    | (.error e, vm') => (.error e, vm')
    | (.ok (pt, i), vm') =>
        if !PageTableEntry.isPresent (vm'.mem pt i) then (.error .notMapped, vm')
        else (.ok (), vm'.write pt i 0)

/-- `vm::map_page`: `map_page_internal` through the active PML4, after the checks of
`map_page_in_pml4`. -/
def mapPage (vm : Vm) (virt phys : Nat) (flags : UInt64) : Except VmError Unit × Vm :=
  vm.mapPageInPml4 vm.activePml4 virt phys flags

/-- `vm::unmap_page`: `walk_to_entry` walks the active PML4, with the checks and the clearing of
`unmap_page_in_pml4`. -/
def unmapPage (vm : Vm) (virt : Nat) : Except VmError Unit × Vm :=
  vm.unmapPageInPml4 vm.activePml4 virt

/-- `query_mapping_in_pml4`: the frame and the flags of `virt`'s leaf entry. -/
def queryMappingInPml4 (vm : Vm) (pml4Phys virt : Nat) : Except VmError (Nat × UInt64) :=
  if !isPageAligned virt then .error .unaligned
  else if pml4Phys = 0 then .error .notInitialized
  else
    match (vm.walkToEntryWithRootUser pml4Phys virt false false).1 with
    | .error e => .error e
    | .ok (pt, i) =>
        if !PageTableEntry.isPresent (vm.mem pt i) then .error .notMapped
        else .ok (PageTableEntry.addr (vm.mem pt i), vm.mem pt i)

/-- `clone_kernel_mappings`: the new PML4 gets an empty lower half and the upper half of the
active PML4. -/
def cloneKernelMappings (vm : Vm) (dstPml4Phys : Nat) : Except VmError Unit × Vm :=
  if !isPageAligned dstPml4Phys then (.error .unaligned, vm)
  else if vm.activePml4 = 0 then (.error .notInitialized, vm)
  else
    (.ok (), { vm with
      mem := Function.update vm.mem dstPml4Phys fun idx =>
        if idx.val < ENTRIES_PER_TABLE / 2 then 0 else vm.mem vm.activePml4 idx })

/-- `PRESENT | WRITABLE | CACHE_DISABLE | GLOBAL`: the flags `vm::init` gives the VGA buffer and
the APICs. -/
def deviceFlags : UInt64 :=
  PageFlags.PRESENT ||| PageFlags.WRITABLE ||| PageFlags.CACHE_DISABLE ||| PageFlags.GLOBAL

/-- `vm::init`, over the RAM pages of the memory map, each with the flags `flags_for_descriptor`
gives its region: a PML4 is allocated and made active; every RAM page is identity-mapped and,
below `HIGHER_HALF_MIRROR_SIZE`, mirrored at `HIGHER_HALF_BASE`; then the PML4 itself, the eight
pages of the VGA buffer, the local APIC and the I/O APIC are identity-mapped.  A mapping that
fails is logged and skipped; `none` where the source panics, without a page for the PML4. -/
def init (vm : Vm) (ram : List (Nat × UInt64)) : Option Vm :=
  match vm.allocPageZeroed with
  | none => none
  | some (pml4Phys, vm₁) =>
      let vm₂ := ram.foldl (fun vm (phys, flags) =>
          let vm' := (vm.mapPageInternal pml4Phys phys phys flags).2
          if phys < HIGHER_HALF_MIRROR_SIZE then
            (vm'.mapPageInternal pml4Phys (HIGHER_HALF_BASE + phys) phys flags).2
          else vm')
        { vm₁ with activePml4 := pml4Phys }
      let vm₃ := (vm₂.mapPageInternal pml4Phys pml4Phys pml4Phys PageFlags.kernelRw).2
      let vm₄ := (List.range 8).foldl (fun vm i =>
          (vm.mapPageInternal pml4Phys (0xB8000 + i * PAGE_SIZE) (0xB8000 + i * PAGE_SIZE)
            deviceFlags).2) vm₃
      let vm₅ := (vm₄.mapPageInternal pml4Phys 0xFEE00000 0xFEE00000 deviceFlags).2
      some (vm₅.mapPageInternal pml4Phys 0xFEC00000 0xFEC00000 deviceFlags).2

/-- The leaf entry `virt` translates through in the hierarchy rooted at `pml4Phys`, when the walk
reaches it and it is present: what the MMU uses. -/
def translate (vm : Vm) (pml4Phys virt : Nat) : Option UInt64 :=
  (Walk.entryAt vm.mem PageTableEntry.next pml4Phys (walkPath virt) (leafIndex virt)).filter
    PageTableEntry.isPresent

/-- Where `virt`'s leaf entry lies in the hierarchy rooted at `pml4Phys`. -/
def leafOf (vm : Vm) (pml4Phys virt : Nat) : Option (Nat × Fin ENTRIES_PER_TABLE) :=
  Walk.leafAt vm.mem PageTableEntry.next pml4Phys (walkPath virt) (leafIndex virt)

/-- The entries a walk for `virt` from `pml4Phys` reads on the way to its leaf. -/
def readsOf (vm : Vm) (pml4Phys virt : Nat) : List (Nat × Fin ENTRIES_PER_TABLE) :=
  Walk.reads vm.mem PageTableEntry.next pml4Phys (walkPath virt)

/-! ### The read-only walk -/

@[simp] theorem write_mem (vm : Vm) (t : Nat) (i : Fin ENTRIES_PER_TABLE) (e : UInt64) :
    (vm.write t i e).mem = Walk.write vm.mem t i e := rfl

/-- Neither creating nor promoting, `ensure_table_user` follows a present entry and fails on an
absent one. -/
theorem ensureTableUser_read (vm : Vm) (t : Nat) (i : Fin ENTRIES_PER_TABLE) :
    vm.ensureTableUser t i false false =
      match PageTableEntry.next (vm.mem t i) with
      | some t' => .ok (t', vm)
      | none => .error .notMapped := by
  unfold ensureTableUser PageTableEntry.next
  by_cases hp : PageTableEntry.isPresent (vm.mem t i) = true <;> simp [hp]

/-- **The read-only walk is the library's walk**: it writes nothing, and ends where
`Walk.tableAt` ends. -/
theorem walkTables_read (vm : Vm) (t : Nat) (path : List (Fin ENTRIES_PER_TABLE)) :
    walkTables false false vm t path =
      ((Walk.tableAt vm.mem PageTableEntry.next t path).elim (.error .notMapped) .ok, vm) := by
  induction path generalizing t with
  | nil => rfl
  | cons i path ih =>
      simp only [walkTables, ensureTableUser_read, Walk.tableAt_cons]
      cases PageTableEntry.next (vm.mem t i) with
      | none => rfl
      | some t' => exact ih t'

theorem walkToEntryWithRootUser_read (vm : Vm) (pml4Phys virt : Nat) :
    vm.walkToEntryWithRootUser pml4Phys virt false false =
      ((vm.leafOf pml4Phys virt).elim (.error .notMapped) .ok, vm) := by
  unfold walkToEntryWithRootUser leafOf Walk.leafAt
  rw [walkTables_read]
  cases Walk.tableAt vm.mem PageTableEntry.next pml4Phys (walkPath virt) <;> rfl

/-! ### Unmapping -/

/-- **`unmap_page_in_pml4` clears the leaf and nothing else**: on an aligned address and a
non-null root, it clears `virt`'s leaf entry when the walk reaches a present one, and otherwise
fails with nothing written. -/
theorem unmapPageInPml4_eq {vm : Vm} {pml4Phys virt : Nat} (hal : isPageAligned virt = true)
    (hroot : pml4Phys ≠ 0) :
    vm.unmapPageInPml4 pml4Phys virt =
      match vm.leafOf pml4Phys virt with
      | some (pt, i) =>
          if PageTableEntry.isPresent (vm.mem pt i) then (.ok (), vm.write pt i 0)
          else (.error .notMapped, vm)
      | none => (.error .notMapped, vm) := by
  simp only [unmapPageInPml4, hal, Bool.not_true, Bool.false_eq_true, if_false, hroot,
    walkToEntryWithRootUser_read]
  cases vm.leafOf pml4Phys virt with
  | none => rfl
  | some loc =>
      obtain ⟨pt, i⟩ := loc
      by_cases hp : PageTableEntry.isPresent (vm.mem pt i) = true <;> simp [hp]

theorem unmapPageInPml4_of_ok {vm vm' : Vm} {pml4Phys virt : Nat}
    (h : vm.unmapPageInPml4 pml4Phys virt = (.ok (), vm')) :
    ∃ pt i, vm.leafOf pml4Phys virt = some (pt, i) ∧ vm' = vm.write pt i 0 := by
  have hal : isPageAligned virt = true := by
    cases hal : isPageAligned virt with
    | true => rfl
    | false => simp [unmapPageInPml4, hal] at h
  have hroot : pml4Phys ≠ 0 := by
    rintro rfl
    simp [unmapPageInPml4, hal] at h
  rw [unmapPageInPml4_eq hal hroot] at h
  cases hl : vm.leafOf pml4Phys virt with
  | none => rw [hl] at h; cases h
  | some loc =>
      obtain ⟨pt, i⟩ := loc
      rw [hl] at h
      by_cases hp : PageTableEntry.isPresent (vm.mem pt i) = true
      · simp only [hp, if_true, Prod.mk.injEq] at h
        exact ⟨pt, i, rfl, h.2.symm⟩
      · simp [hp] at h

/-! ### Cloning the kernel half -/

/-! ### Mapping and querying -/

/-- An empty PML4 at `0x100000`, with three free pages for the tables below it. -/
def zeroedRoot : Vm := ⟨fun _ _ => 0, [0x101000, 0x102000, 0x103000], 0⟩

/-- `map_page_in_pml4` stores the flags it is given: without `PRESENT` the call
succeeds and the query then finds nothing; flags with address bits change the frame the query
reports. -/
theorem queryMappingInPml4_mapPageInPml4 :
    (zeroedRoot.mapPageInPml4 0x100000 0x400000 0x5000 0).1 = .ok () ∧
    (zeroedRoot.mapPageInPml4 0x100000 0x400000 0x5000 0).2.queryMappingInPml4 0x100000 0x400000 =
      .error .notMapped ∧
    (zeroedRoot.mapPageInPml4 0x100000 0x400000 0x5000 (PageFlags.PRESENT ||| 0x2000)).1 = .ok () ∧
    ((zeroedRoot.mapPageInPml4 0x100000 0x400000 0x5000 (PageFlags.PRESENT ||| 0x2000)).2.queryMappingInPml4
      0x100000 0x400000).map Prod.fst = .ok 0x7000 := by
  decide

end Vm

end Atom
