import Atom.Lib.Reach
import Atom.Kernel.Cap.Invariant

/-!
# Capabilities — the capability system and its reachable states

The capability system is the transition system whose steps are the calls that change
capabilities (`CapStep`): `create_root_capability`, the pair of calls of `sys_cap_create` and
`sys_ipc_create_port` (`createOwnedRoot`), `derive_capability`, `transfer_capability`,
`revoke_capability`, and a thread joining the list with a fresh id and an empty table, as
`Thread::new` builds it.  It starts from the empty system (`CapSys.empty`).

* `capInv_of_reachable`: every reachable state keeps the representation invariant.
* `capStore_consistent`: in a reachable state the thread tables agree with the global map, a
  derived capability agrees with the parent that lists it, and no handle is in two tables.
* `revoke_complete`: a revocation that succeeds removes exactly the handle and the capabilities
  whose parent links lead to it (`InSubtree`), from the global map and from every table, returns
  each of them once, and changes nothing else.
-/

namespace Atom

open Lib Lib.Graph Lib.KeyedList ThreadList

namespace CapSys

/-- The calls that change the capability system. -/
inductive CapCall where
  | createRoot (resource : ResourceType) (owner : ThreadId) (permissions : CapPermissions)
  | createOwnedRoot (resource : ResourceType) (owner : ThreadId) (permissions : CapPermissions)
  | derive (parentHandle : CapHandle) (ownerThread newOwner : ThreadId)
      (reducedPerms : CapPermissions)
  | transfer (capHandle : CapHandle) (sourceThread targetThread : ThreadId)
  | revoke (handle : CapHandle) (revoker : ThreadId)
  | addThread (thread : Thread)

/-- One call, from the state before it to the state after it. -/
inductive CapStep : CapSys → CapCall → CapSys → Prop where
  | createRoot (s : CapSys) (resource : ResourceType) (owner : ThreadId)
      (permissions : CapPermissions) :
      CapStep s (.createRoot resource owner permissions)
        (s.createRootCapability resource owner permissions).2
  | createOwnedRoot (s : CapSys) (resource : ResourceType) (owner : ThreadId)
      (permissions : CapPermissions) :
      CapStep s (.createOwnedRoot resource owner permissions)
        (s.createOwnedRoot resource owner permissions).2
  | derive (s : CapSys) (parentHandle : CapHandle) (ownerThread newOwner : ThreadId)
      (reducedPerms : CapPermissions) :
      CapStep s (.derive parentHandle ownerThread newOwner reducedPerms)
        (s.deriveCapability parentHandle ownerThread newOwner reducedPerms).2
  | transfer (s : CapSys) (capHandle : CapHandle) (sourceThread targetThread : ThreadId) :
      CapStep s (.transfer capHandle sourceThread targetThread)
        (s.transferCapability capHandle sourceThread targetThread).2
  | revoke (s : CapSys) (handle : CapHandle) (revoker : ThreadId) :
      CapStep s (.revoke handle revoker) (s.revoke handle revoker).2
  | addThread (s : CapSys) (thread : Thread) (hfresh : s.threads.lookup thread.id = none)
      (hempty : thread.capabilityTable.capabilities = ∅) :
      CapStep s (.addThread thread) { s with threads := s.threads.add thread }

/-- The capability system at boot: no capability, `NEXT_HANDLE` at one, no thread. -/
def empty : CapSys := ⟨∅, 1, []⟩

/-- The states the capability calls reach from boot. -/
def IsReachable (s : CapSys) : Prop := Reachable CapStep empty s

variable {s s' : CapSys}

theorem capInv_empty : CapInv empty := by
  refine ⟨⟨?_, ?_, ?_, ?_, ⟨?_, ?_⟩, ?_⟩, fun t ht => absurd ht List.not_mem_nil, List.nodup_nil⟩ <;>
    intros <;> simp_all [empty]

/-- **Every call keeps the representation invariant.** -/
theorem capInv_step {a : CapCall} (hi : CapInv s) (hst : CapStep s a s') : CapInv s' := by
  cases hst with
  | createRoot resource owner permissions =>
      exact createRootCapability_inv hi resource owner permissions
  | createOwnedRoot resource owner permissions =>
      exact createOwnedRoot_inv hi resource owner permissions
  | derive parentHandle ownerThread newOwner reducedPerms =>
      exact deriveCapability_inv hi parentHandle ownerThread newOwner reducedPerms
  | transfer capHandle sourceThread targetThread =>
      exact transferCapability_inv hi capHandle sourceThread targetThread
  | revoke handle revoker => exact revoke_inv hi handle revoker
  | addThread thread hfresh hempty => exact hi.add hfresh hempty

theorem capInv_of_reachable (hs : IsReachable s) : CapInv s :=
  Reachable.induct capInv_empty (fun _ _ _ hi hst => capInv_step hi hst) hs

/-! ### A run -/

/-- Two threads, as `Thread::new` makes them. -/
def twoThreads : CapSys :=
  ⟨∅, 1, [Thread.new 1 0 0 0 0 .normal, Thread.new 2 0 0 0 0 .normal]⟩

/-- The first thread holds a root over itself with every permission (`sys_cap_create`). -/
def rootOfFirst : CapSys := (twoThreads.createOwnedRoot (.thread 1) 1 ⟨0x1F⟩).2

/-- The first thread has derived a read-only child of its root to the second. -/
def twoThreadTree : CapSys := (rootOfFirst.deriveCapability 1 1 2 CapPermissions.READ).2

theorem twoThreads_reachable : IsReachable twoThreads := by
  have h₁ : IsReachable ⟨∅, 1, [Thread.new 1 0 0 0 0 .normal]⟩ :=
    Reachable.next Reachable.init _ (CapStep.addThread empty _ rfl rfl)
  exact Reachable.next h₁ _ (CapStep.addThread _ (Thread.new 2 0 0 0 0 .normal) rfl rfl)

theorem rootOfFirst_reachable : IsReachable rootOfFirst :=
  Reachable.next twoThreads_reachable _ (CapStep.createOwnedRoot _ _ _ _)

theorem twoThreadTree_reachable : IsReachable twoThreadTree :=
  Reachable.next rootOfFirst_reachable _ (CapStep.derive _ _ _ _ _)

/-! ### The two views agree -/

/-- The invariant makes the two views agree: (a) a table entry is a copy of the global entry of
its handle, owned there by the thread; (b) a capability whose parent is still present has the
parent's resource, a subset of its permissions, and is in its children; (c) no handle is in the
tables of two different threads. -/
theorem CapInv.consistent (hi : CapInv s) :
    (∀ t ∈ s.threads, ∀ h c, t.capabilityTable.get h = some c →
      ∃ g, s.globalCaps.lookup h = some g ∧ g.handle = h ∧ c.handle = h ∧
        g.resource = c.resource ∧ g.permissions = c.permissions ∧ g.owner = t.id) ∧
    (∀ h c p pc, s.globalCaps.lookup h = some c → c.parent = some p →
      s.globalCaps.lookup p = some pc →
      c.resource = pc.resource ∧ c.permissions.isSubsetOf pc.permissions = true ∧
        c.handle ∈ pc.children) ∧
    (∀ t₁ ∈ s.threads, ∀ t₂ ∈ s.threads, t₁ ≠ t₂ → ∀ h,
      ¬(h ∈ t₁.capabilityTable.capabilities ∧ h ∈ t₂.capabilityTable.capabilities)) := by
  refine ⟨fun t ht h c hc => ?_, fun h c p pc hc hp hpc => ?_, fun t₁ ht₁ t₂ ht₂ hne h => ?_⟩
  · obtain ⟨hch, -, g, hg, hgo, hgr, hgp⟩ := hi.tables t ht h c hc
    exact ⟨g, hg, hi.global.key h g hg, hch, hgr, hgp, hgo⟩
  · obtain ⟨hr, hsub⟩ := hi.global.derived h c p pc hc hp hpc
    refine ⟨hr, hsub, ?_⟩
    rw [hi.global.key h c hc]
    exact hi.global.links.child_of_parent h c p pc hc hp hpc
  · -- both holders are the global owner of `h`, so they share an id, and ids are distinct
    rintro ⟨h₁, h₂⟩
    obtain ⟨g₁, hg₁, ho₁⟩ := hi.walkInv.holdersOwn t₁ ht₁ h h₁
    obtain ⟨g₂, hg₂, ho₂⟩ := hi.walkInv.holdersOwn t₂ ht₂ h h₂
    rw [hg₁, Option.some_inj] at hg₂
    have hid : t₁.id = t₂.id := ho₁.symm.trans (hg₂ ▸ ho₂)
    exact hne (List.inj_on_of_nodup_map hi.nodupIds ht₁ ht₂ hid)

/-- **The capability store is consistent** in every reachable state, in the three senses of
`CapInv.consistent`. -/
theorem capStore_consistent (hs : IsReachable s) :
    (∀ t ∈ s.threads, ∀ h c, t.capabilityTable.get h = some c →
      ∃ g, s.globalCaps.lookup h = some g ∧ g.handle = h ∧ c.handle = h ∧
        g.resource = c.resource ∧ g.permissions = c.permissions ∧ g.owner = t.id) ∧
    (∀ h c p pc, s.globalCaps.lookup h = some c → c.parent = some p →
      s.globalCaps.lookup p = some pc →
      c.resource = pc.resource ∧ c.permissions.isSubsetOf pc.permissions = true ∧
        c.handle ∈ pc.children) ∧
    (∀ t₁ ∈ s.threads, ∀ t₂ ∈ s.threads, t₁ ≠ t₂ → ∀ h,
      ¬(h ∈ t₁.capabilityTable.capabilities ∧ h ∈ t₂.capabilityTable.capabilities)) :=
  (capInv_of_reachable hs).consistent

theorem capStore_consistent_twoThreadTree :
    (∀ t ∈ twoThreadTree.threads, ∀ h c, t.capabilityTable.get h = some c →
      ∃ g, twoThreadTree.globalCaps.lookup h = some g ∧ g.handle = h ∧ c.handle = h ∧
        g.resource = c.resource ∧ g.permissions = c.permissions ∧ g.owner = t.id) ∧
    (∀ h c p pc, twoThreadTree.globalCaps.lookup h = some c → c.parent = some p →
      twoThreadTree.globalCaps.lookup p = some pc →
      c.resource = pc.resource ∧ c.permissions.isSubsetOf pc.permissions = true ∧
        c.handle ∈ pc.children) ∧
    (∀ t₁ ∈ twoThreadTree.threads, ∀ t₂ ∈ twoThreadTree.threads, t₁ ≠ t₂ → ∀ h,
      ¬(h ∈ t₁.capabilityTable.capabilities ∧ h ∈ t₂.capabilityTable.capabilities)) :=
  capStore_consistent twoThreadTree_reachable

/-! ### Revocation -/

/-- `d` is `h`, or its parent links lead, through present capabilities, to `h`. -/
def InSubtree (s : CapSys) (h d : CapHandle) : Prop :=
  d = h ∨ Descends Capability.parent s.globalCaps h d

/-- **Revocation is complete**: from a reachable state, a revocation that succeeds leaves none of
`h`'s subtree in the global map or in any table, returns each handle of the subtree once and no
other, and changes nothing else: the counter stays, and the global map and every table lose
exactly the subtree. -/
theorem revoke_complete {h : CapHandle} {r : ThreadId} {revoked : List CapHandle}
    (hs : IsReachable s) (hrev : s.revoke h r = (.ok revoked, s')) :
    (∀ d, InSubtree s h d →
      d ∉ s'.globalCaps ∧ ∀ t ∈ s'.threads, d ∉ t.capabilityTable.capabilities) ∧
    revoked.Nodup ∧ (∀ d, d ∈ revoked ↔ InSubtree s h d) ∧
    (∀ d, d ∈ revoked ↔ d ∈ s.globalCaps ∧ d ∉ s'.globalCaps) ∧
    Revoked s' s (InSubtree s h) := by
  have hi := capInv_of_reachable hs
  have hh : h ∈ s.globalCaps := by
    by_contra hh
    rw [revoke_of_not_mem hh] at hrev
    cases hrev
  obtain ⟨L, hL, hnd, hmem, hdone⟩ := revoke_of_mem hi.walkInv hh r
  rw [hrev] at hL hdone
  cases hL
  -- along the children lists `revoke` reaches exactly the subtree
  have hsub : ∀ d, Reach Capability.children s.globalCaps h d ↔ InSubtree s h d :=
    fun d => reach_iff_descends hi.global.links hh
  have hdone' := hdone.congr hsub
  -- a removed handle is in no table left
  have hgone : ∀ d, InSubtree s h d → ∀ t ∈ s'.threads, d ∉ t.capabilityTable.capabilities :=
    fun d hd t ht hdt => by
      obtain ⟨t₀, -, htr⟩ := hdone'.threads.mem ht
      exact (htr.mem_iff.mp hdt).2 hd
  refine ⟨fun d hd => ⟨?_, hgone d hd⟩, hnd, fun d => (hmem d).trans (hsub d), fun d => ?_,
    hdone'⟩
  · exact Finmap.lookup_eq_none.mp ((hdone'.globalCaps d).1 hd)
  · rw [hmem d, hsub d, hdone'.globalCaps.mem_iff]
    constructor
    · intro hd
      refine ⟨?_, fun h' => h'.2 hd⟩
      rcases hd with rfl | hd
      · exact hh
      · exact hd.mem
    · rintro ⟨hd, hd'⟩
      by_contra hn
      exact hd' ⟨hd, hn⟩

theorem revoke_complete_twoThreadTree :
    (∀ d, InSubtree twoThreadTree 1 d → d ∉ (twoThreadTree.revoke 1 1).2.globalCaps ∧
      ∀ t ∈ (twoThreadTree.revoke 1 1).2.threads, d ∉ t.capabilityTable.capabilities) ∧
    ([1, 2] : List CapHandle).Nodup ∧
    (∀ d, d ∈ ([1, 2] : List CapHandle) ↔ InSubtree twoThreadTree 1 d) ∧
    (∀ d, d ∈ ([1, 2] : List CapHandle) ↔
      d ∈ twoThreadTree.globalCaps ∧ d ∉ (twoThreadTree.revoke 1 1).2.globalCaps) ∧
    Revoked (twoThreadTree.revoke 1 1).2 twoThreadTree (InSubtree twoThreadTree 1) :=
  revoke_complete (r := 1) twoThreadTree_reachable (Prod.ext (by decide) rfl)

end CapSys

end Atom
