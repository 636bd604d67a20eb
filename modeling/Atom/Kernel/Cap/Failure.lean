import Atom.Kernel.Cap.System

/-!
# Capabilities — what a failed derivation or transfer leaves behind

`derive_capability` and `transfer_capability` change two stores one after the other, and their
last step can fail after the first store has changed.

* `deriveCapability_unknown_owner_rootOfFirst`: when every check passes but the new owner is not
  a thread, `derive_capability` answers `NotFound`, yet the child is in the global map;
  `sys_cap_derive` passes the new owner on unchecked.
* `transferCapability_error`: a failed transfer leaves the state as it was, unless it answers
  `AlreadyExists` because the target is not a thread, after taking the capability out of the
  source's table.  `sys_cap_transfer` checks the target first, so only direct callers meet this
  case.
-/

namespace Atom

open Lib Lib.Graph Lib.KeyedList ThreadList

namespace ThreadList

variable {ts : ThreadList}

/-- Putting back what `remove_capability` took out restores the list. -/
theorem addCapability_removeCapability (hnd : NodupKeys Thread.id ts) {o : ThreadId}
    {t : Thread} {h : CapHandle} {cap : Capability} (hl : ts.lookup o = some t)
    (hget : t.capabilityTable.get h = some cap) (hh : cap.handle = h) :
    ((ts.removeCapability o h).2.addCapability o cap).2 = ts := by
  have hrem : (ts.removeCapability o h).2 = ts.update o fun t' => { t' with capabilityTable :=
      { t.capabilityTable with capabilities := t.capabilityTable.capabilities.erase h } } := by
    rw [removeCapability, hl]
    rfl
  have hl' : (ts.removeCapability o h).2.lookup o = some { t with capabilityTable :=
      { t.capabilityTable with capabilities := t.capabilityTable.capabilities.erase h } } := by
    rw [hrem, lookup_update_table_self, hl]
    rfl
  rcases addCapability_cases (ts.removeCapability o h).2 o cap with
    ⟨hn, -⟩ | ⟨t', ht', hmem, -⟩ | ⟨t', ht', -, he⟩
  · rw [hl'] at hn
    cases hn
  · rw [hl', Option.some_inj] at ht'
    subst ht'
    exact absurd hmem (hh ▸ Finmap.notMem_erase_self)
  · rw [hl', Option.some_inj] at ht'
    subst ht'
    rw [he, hrem, update, update, update_update hnd (keepsKey_table _)]
    refine update_eq_self fun b hb hbo => ?_
    obtain rfl : b = t :=
      Option.some_inj.mp (((lookup_eq_some_iff hnd).mpr ⟨hb, hbo⟩).symm.trans hl)
    simp only [Function.comp, hh, insert_erase_of_lookup hget]

/-- Removing a handle the table does not hold leaves the list. -/
theorem removeCapability_of_get_none (hnd : NodupKeys Thread.id ts) {o : ThreadId} {t : Thread}
    {h : CapHandle} (hl : ts.lookup o = some t) (hget : t.capabilityTable.get h = none) :
    (ts.removeCapability o h).2 = ts := by
  rw [removeCapability, hl]
  refine update_eq_self fun b hb hbo => ?_
  obtain rfl : b = t :=
    Option.some_inj.mp (((lookup_eq_some_iff hnd).mpr ⟨hb, hbo⟩).symm.trans hl)
  show { b with capabilityTable := { b.capabilityTable with
    capabilities := b.capabilityTable.capabilities.erase h } } = b
  rw [erase_of_not_mem (Finmap.lookup_eq_none.mp hget)]

end ThreadList

namespace CapSys

variable {s : CapSys}

/-- The failing input: thread 1 holds a root with `GRANT` and derives a child to thread 99,
which does not exist; handle 2 is left in the global map. -/
theorem deriveCapability_unknown_owner_rootOfFirst :
    IsReachable rootOfFirst ∧
    (rootOfFirst.deriveCapability 1 1 99 CapPermissions.READ).1 = .error .notFound ∧
    2 ∉ rootOfFirst.globalCaps ∧
    2 ∈ (rootOfFirst.deriveCapability 1 1 99 CapPermissions.READ).2.globalCaps := by
  refine ⟨rootOfFirst_reachable, ?_, ?_, ?_⟩ <;> decide

/-- **Every other failed transfer changes nothing**: from a reachable state, a transfer that
fails leaves the state as it was, unless it answers `AlreadyExists` because the target is not a
thread. -/
theorem transferCapability_error (hs : IsReachable s) {capHandle : CapHandle}
    {sourceThread targetThread : ThreadId} {e : CapError}
    (he : (s.transferCapability capHandle sourceThread targetThread).1 = .error e) :
    (s.transferCapability capHandle sourceThread targetThread).2 = s ∨
      (e = .alreadyExists ∧ s.threads.lookup targetThread = none) := by
  have hi := capInv_of_reachable hs
  unfold transferCapability at he ⊢
  rcases removeCapability_cases s.threads sourceThread capHandle with ⟨-, hr⟩ | ⟨t, hl, hr⟩
  · rw [hr]
    exact .inl rfl
  cases hget : t.capabilityTable.get capHandle with
  | none =>
      -- the source did not hold the handle: nothing was taken out
      have hsame := removeCapability_of_get_none hi.nodupIds hl hget
      rw [hr] at hsame
      rw [hr, hget] at he ⊢
      dsimp only at hsame ⊢
      rw [hsame]
      exact .inl rfl
  | some cap =>
      obtain ⟨hh, -, g, hg, hgo, -⟩ := hi.tables t (mem_of_lookup hl) capHandle cap hget
      -- putting the capability back restores the source's table
      have hback := addCapability_removeCapability hi.nodupIds hl hget hh
      rw [hr] at hback
      rw [hr, hget] at he ⊢
      dsimp only at hback he ⊢
      split_ifs at he ⊢
      · rw [hback]
        exact .inl rfl
      · rw [hback]
        exact .inl rfl
      set ts₁ := s.threads.update sourceThread fun t' => { t' with capabilityTable :=
        { t.capabilityTable with capabilities := t.capabilityTable.capabilities.erase capHandle } }
      have hl₁ : ts₁.lookup sourceThread = some { t with capabilityTable :=
          { t.capabilityTable with capabilities := t.capabilityTable.capabilities.erase capHandle } } := by
        rw [lookup_update_table_self, hl]
        rfl
      rcases addCapability_cases ts₁ targetThread { cap with owner := targetThread } with
        ⟨hn, ha⟩ | ⟨t', ht', hmem, ha⟩ | ⟨t', -, -, ha⟩ <;> rw [ha] at he ⊢
      · -- no target thread: the target is not the source, whose thread is there
        have hne : targetThread ≠ sourceThread := fun e' => by
          rw [e', hl₁] at hn
          cases hn
        exact .inr ⟨(Except.error.inj he).symm, (lookup_update_table_ne _ _ hne).symm.trans hn⟩
      · -- the target's table held the handle, so the target is its global owner, the source
        exfalso
        by_cases hne : targetThread = sourceThread
        · rw [hne, hl₁, Option.some_inj] at ht'
          subst ht'
          exact Finmap.notMem_erase_self (hh ▸ hmem)
        · rw [lookup_update_table_ne _ _ hne] at ht'
          obtain ⟨c, hc⟩ := Finmap.mem_iff.mp hmem
          obtain ⟨-, -, g', hg', hgo', -⟩ := hi.tables t' (mem_of_lookup ht') _ c hc
          rw [hh, hg, Option.some_inj] at hg'
          subst hg'
          exact hne ((key_of_lookup ht').symm.trans (hgo'.symm.trans (hgo.trans (key_of_lookup hl))))
      · cases he

end CapSys

end Atom
