import Atom.Kernel.Mm.Tables

/-!
# Memory — the mapping counter of an address space

`AddressSpace::mapping_count` moves by the number of pages a call was asked for, not by the pages
it mapped or unmapped: `unmap_region` logs every page it fails to unmap and still lowers the
counter by the size of the whole region.  `destroy` trusts the counter.

* `destroy_mappedThenMissed`: a space that maps one page and unmaps another has a counter of
  zero with its page still mapped, and `destroy` removes it and frees its PML4.

A failed region call is not undone either.  `remap_region` unmaps the whole old range before it
maps the new one, and gives up at the first page that does not map (one that is mapped
already), with the old range gone.  `map_region` counts the pages its rollback
could not unmap, and a page mapped without `PRESENT` cannot be unmapped.

* `remapRegion_twoPagesMapped`: both, from a space with two pages mapped.
-/

namespace Atom

open Lib

namespace Vm

/-! ### Mapping over a mapped page -/

/-- Every entry of `vm'` points where it points in `vm`: what `ensure_table_user` keeps when it
follows a present entry and at most sets its `USER` bit. -/
def SameNext (vm vm' : Vm) : Prop :=
  ∀ t i, PageTableEntry.next (vm'.mem t i) = PageTableEntry.next (vm.mem t i)

end Vm

namespace AddressSpaceManager

/-- The owner of space 1 maps the page at `0x400000` for user access, then unmaps the page at
`0x500000`, which it never mapped. -/
def mappedThenMissed : AddressSpaceManager :=
  run apply twoSpaces
    [.mapRegion 1 2 0x400000 0x5000 PAGE_SIZE
        (PageFlags.PRESENT ||| PageFlags.WRITABLE ||| PageFlags.USER),
      .unmapRegion 1 2 0x500000 PAGE_SIZE]

/-- In `mappedThenMissed` space 1 counts no mapping while its PML4 still maps `0x400000`, and
`destroy` succeeds: the space is gone and its PML4, which still maps the page, is free. -/
theorem destroy_mappedThenMissed :
    mappedThenMissed.IsReachable ∧
    (mappedThenMissed.spaces.lookup 1).map (fun a => (a.pml4Phys, a.mappingCount)) =
      some (0x10A000, 0) ∧
    mappedThenMissed.vm.translate 0x10A000 0x400000 = some 0x5007 ∧
    (mappedThenMissed.destroy 1 2).1 = .ok () ∧
    (mappedThenMissed.destroy 1 2).2.spaces.lookup 1 = none ∧
    0x10A000 ∈ (mappedThenMissed.destroy 1 2).2.vm.free ∧
    (mappedThenMissed.destroy 1 2).2.vm.translate 0x10A000 0x400000 = some 0x5007 := by
  -- one kernel evaluation of the run serves every conjunct
  refine ⟨⟨bootFree, bootRam, bootVm, init_bootRam, (Reachable.init.run _).run _⟩, ?_⟩
  decide +kernel

/-- The owner of space 1 maps the pages at `0x400000` and `0x401000` for user access. -/
def twoPagesMapped : AddressSpaceManager :=
  run apply twoSpaces
    [.mapRegion 1 2 0x400000 0x5000 (2 * PAGE_SIZE)
        (PageFlags.PRESENT ||| PageFlags.WRITABLE ||| PageFlags.USER)]

/-- In `twoPagesMapped`, moving the page at `0x400000` onto `0x401000` fails with
`AlreadyMapped` and leaves `0x400000` unmapped; mapping two pages from `0x3FF000` without
`PRESENT` fails at `0x400000` and still raises the counter by the page it mapped first. -/
theorem remapRegion_twoPagesMapped :
    twoPagesMapped.IsReachable ∧
    (twoPagesMapped.spaces.lookup 1).map (fun a => (a.pml4Phys, a.mappingCount)) =
      some (0x10A000, 2) ∧
    twoPagesMapped.vm.translate 0x10A000 0x400000 = some 0x5007 ∧
    (twoPagesMapped.remapRegion 1 2 0x400000 0x401000 PAGE_SIZE).1 = .error .alreadyMapped ∧
    (twoPagesMapped.remapRegion 1 2 0x400000 0x401000 PAGE_SIZE).2.vm.translate
      0x10A000 0x400000 = none ∧
    (twoPagesMapped.mapRegion 1 2 0x3FF000 0x7000 (2 * PAGE_SIZE)
      (PageFlags.WRITABLE ||| PageFlags.USER)).1 = .error .alreadyMapped ∧
    ((twoPagesMapped.mapRegion 1 2 0x3FF000 0x7000 (2 * PAGE_SIZE)
      (PageFlags.WRITABLE ||| PageFlags.USER)).2.spaces.lookup 1).map AddressSpace.mappingCount =
      some 3 := by
  refine ⟨⟨bootFree, bootRam, bootVm, init_bootRam, (Reachable.init.run _).run _⟩, ?_⟩
  decide +kernel

end AddressSpaceManager

end Atom
