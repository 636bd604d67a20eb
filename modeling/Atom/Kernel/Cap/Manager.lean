import Atom.Kernel.Thread.List

/-!
# Capabilities — the capability manager

The operations of `kernel/src/cap.rs` that change capabilities, over `CapSys`: the global map of
`CAPABILITY_MANAGER`, the counter `NEXT_HANDLE`, and the thread list the manager reaches through
`crate::thread`.

* `register` and `createRootCapability` add a root to the global map only; the syscalls that
  hand the root to a thread call `add_thread_capability` after them.
* `createOwnedRoot` is the pair of calls `sys_cap_create` and `sys_ipc_create_port` make: the
  root, then the owner's table.
* `revoke` removes a capability from the global map and from its owner's table, then revokes
  each of its children in turn, ignoring those already gone.  The source recurses without a
  bound; each call that goes on removes an entry, so the depth is at most the number of entries.
  `revokeAux` carries that bound as fuel, and `revoke` starts it at the size of the map plus one
  (`Revoke.lean` shows that this fuel never cuts the walk short).
* `deriveCapability` checks the caller's table, then ownership and `GRANT` on the global parent,
  derives the child, writes the parent and the child into the global map and only then inserts
  the child into the new owner's table.
* `transferCapability` takes the capability out of the source's table, puts it back on the
  ownership and `GRANT` failures, inserts it into the target's table and then moves the global
  owner.
-/

namespace Atom

/-- The state the capability operations read and write. -/
structure CapSys where
  /-- `CAPABILITY_MANAGER.global_caps`. -/
  globalCaps : CapMap
  /-- `NEXT_HANDLE`: the handle `CapHandle::new()` returns next. -/
  nextHandle : CapHandle
  /-- `THREAD_LIST`. -/
  threads : ThreadList

namespace CapSys

/-- `CapabilityManager::register`. -/
def register (s : CapSys) (cap : Capability) : Except CapError CapHandle × CapSys :=
  if cap.handle ∈ s.globalCaps then (.error .alreadyExists, s)
  else (.ok cap.handle, { s with globalCaps := s.globalCaps.insert cap.handle cap })

/-- `create_root_capability`: `Capability::new_root` draws the next handle, then `register`. -/
def createRootCapability (s : CapSys) (resource : ResourceType) (owner : ThreadId)
    (permissions : CapPermissions) : Except CapError Capability × CapSys :=
  let cap := Capability.newRoot s.nextHandle resource owner permissions
  let (r, s') := { s with nextHandle := s.nextHandle + 1 }.register cap
  (r.map fun _ => cap, s')

/-- `create_root_capability` followed by `add_thread_capability` for the owner, as
`sys_cap_create` and `sys_ipc_create_port` do.  A failure of the second call keeps what the
first did. -/
def createOwnedRoot (s : CapSys) (resource : ResourceType) (owner : ThreadId)
    (permissions : CapPermissions) : Except CapError Capability × CapSys :=
  match s.createRootCapability resource owner permissions with
  | (.error e, s₁) => (.error e, s₁)
  | (.ok cap, s₁) =>
      match s₁.threads.addCapability owner cap with
      | (.error e, ts) => (.error e, { s₁ with threads := ts })
      | (.ok _, ts) => (.ok cap, { s₁ with threads := ts })

/-- One turn of `revoke`'s loop over the children: revoke `child`, and on success append what it
revoked. -/
def revokeStep (rec : CapSys → CapHandle → Except CapError (List CapHandle) × CapSys)
    (acc : List CapHandle × CapSys) (child : CapHandle) : List CapHandle × CapSys :=
  match rec acc.2 child with
  | (.ok childRevoked, s') => (acc.1 ++ childRevoked, s')
  | (.error _, s') => (acc.1, s')

/-- `CapabilityManager::revoke`, with the depth bound `fuel`. -/
def revokeAux : Nat → CapSys → CapHandle → ThreadId → Except CapError (List CapHandle) × CapSys
  | 0, s, _, _ => (.error .notFound, s)
  | fuel + 1, s, handle, revoker =>
      match s.globalCaps.lookup handle with
      | none => (.error .notFound, s)
      | some cap =>
          let s₁ : CapSys := { s with globalCaps := s.globalCaps.erase handle }
          let s₂ : CapSys := { s₁ with threads := (s₁.threads.removeCapability cap.owner handle).2 }
          let (revoked, s₃) :=
            cap.children.foldl (revokeStep fun s c => revokeAux fuel s c revoker) ([handle], s₂)
          (.ok revoked, s₃)

/-- `revoke_capability` / `CapabilityManager::revoke`.  The revoker only enters the audit log. -/
def revoke (s : CapSys) (handle : CapHandle) (revoker : ThreadId) :
    Except CapError (List CapHandle) × CapSys :=
  revokeAux (s.globalCaps.keys.card + 1) s handle revoker

/-- `query_children`. -/
def queryChildren (s : CapSys) (handle : CapHandle) : Except CapError (List CapHandle) :=
  match s.globalCaps.lookup handle with
  | none => .error .notFound
  | some cap => .ok cap.children

/-- `query_parent`. -/
def queryParent (s : CapSys) (handle : CapHandle) : Except CapError (Option CapHandle) :=
  match s.globalCaps.lookup handle with
  | none => .error .notFound
  | some cap => .ok cap.parent

/-- `derive_capability`. -/
def deriveCapability (s : CapSys) (parentHandle : CapHandle) (ownerThread newOwner : ThreadId)
    (reducedPerms : CapPermissions) : Except CapError CapHandle × CapSys :=
  if !s.threads.hasCapability ownerThread parentHandle then (.error .notFound, s) else
  match s.globalCaps.lookup parentHandle with
  | none => (.error .notFound, s)
  | some parent =>
      if !parent.isOwnedBy ownerThread then (.error .notOwner, s)
      else if !parent.hasPermission CapPermissions.GRANT then (.error .permissionDenied, s)
      else
        match parent.derive s.nextHandle newOwner reducedPerms with
        | .error e => (.error e, s)
        | .ok (parent', child) =>
            -- the parent is changed in place in the global map, then the child is inserted;
            -- the lock is dropped before the new owner's table is touched
            let s₁ : CapSys :=
              { s with
                nextHandle := s.nextHandle + 1
                globalCaps := (s.globalCaps.insert parentHandle parent').insert child.handle child }
            match s₁.threads.addCapability newOwner child with
            | (.error e, ts) => (.error e, { s₁ with threads := ts })
            | (.ok _, ts) => (.ok child.handle, { s₁ with threads := ts })

/-- The global map with the owner of `handle`, if present, set to `owner`
(`caps.get_mut(&cap_handle)` in `transfer_capability`). -/
def setGlobalOwner (caps : CapMap) (handle : CapHandle) (owner : ThreadId) : CapMap :=
  match caps.lookup handle with
  | none => caps
  | some g => caps.insert handle { g with owner }

/-- `transfer_capability`. -/
def transferCapability (s : CapSys) (capHandle : CapHandle) (sourceThread targetThread : ThreadId) :
    Except CapError Unit × CapSys :=
  match s.threads.removeCapability sourceThread capHandle with
  | (none, ts) => (.error .notFound, { s with threads := ts })
  | (some cap, ts) =>
      if !cap.isOwnedBy sourceThread then
        (.error .notOwner, { s with threads := (ts.addCapability sourceThread cap).2 })
      else if !cap.hasPermission CapPermissions.GRANT then
        (.error .permissionDenied, { s with threads := (ts.addCapability sourceThread cap).2 })
      else
        match ts.addCapability targetThread { cap with owner := targetThread } with
        | (.error _, ts') => (.error .alreadyExists, { s with threads := ts' })
        | (.ok _, ts') =>
            (.ok (), { s with threads := ts', globalCaps := setGlobalOwner s.globalCaps capHandle targetThread })

/-! ### The outcomes of each operation -/

theorem createRootCapability_of_not_mem {s : CapSys} (hfresh : s.nextHandle ∉ s.globalCaps)
    (resource : ResourceType) (owner : ThreadId) (permissions : CapPermissions) :
    s.createRootCapability resource owner permissions =
      (.ok (Capability.newRoot s.nextHandle resource owner permissions),
        { s with nextHandle := s.nextHandle + 1,
                 globalCaps := s.globalCaps.insert s.nextHandle
                   (Capability.newRoot s.nextHandle resource owner permissions) }) := by
  simp [createRootCapability, register, Capability.newRoot, hfresh, Except.map]

/-- `derive_capability` either fails before it writes anything, or has passed every check and
written the parent and the child into the global map, and then tries the new owner's table. -/
theorem deriveCapability_cases (s : CapSys) (parentHandle : CapHandle)
    (ownerThread newOwner : ThreadId) (reducedPerms : CapPermissions) :
    (∃ e, s.deriveCapability parentHandle ownerThread newOwner reducedPerms = (.error e, s)) ∨
    ∃ parent parent' child, s.globalCaps.lookup parentHandle = some parent ∧
      s.threads.hasCapability ownerThread parentHandle = true ∧
      parent.isOwnedBy ownerThread = true ∧ parent.hasPermission CapPermissions.GRANT = true ∧
      parent.derive s.nextHandle newOwner reducedPerms = .ok (parent', child) ∧
      s.deriveCapability parentHandle ownerThread newOwner reducedPerms =
        ((s.threads.addCapability newOwner child).1.map fun _ => child.handle,
          { nextHandle := s.nextHandle + 1,
            globalCaps := (s.globalCaps.insert parentHandle parent').insert child.handle child,
            threads := (s.threads.addCapability newOwner child).2 }) := by
  unfold deriveCapability
  by_cases hhas : s.threads.hasCapability ownerThread parentHandle = true
  swap
  · exact .inl ⟨.notFound, by simp [hhas]⟩
  cases hp : s.globalCaps.lookup parentHandle with
  | none => exact .inl ⟨.notFound, by simp [hhas]⟩
  | some parent =>
      by_cases hown : parent.isOwnedBy ownerThread = true
      swap
      · exact .inl ⟨.notOwner, by simp [hhas, hown]⟩
      by_cases hgr : parent.hasPermission CapPermissions.GRANT = true
      swap
      · exact .inl ⟨.permissionDenied, by simp [hhas, hown, hgr]⟩
      cases hd : parent.derive s.nextHandle newOwner reducedPerms with
      | error e => exact .inl ⟨e, by simp [hhas, hown, hgr, hd]⟩
      | ok pc =>
          refine .inr ⟨parent, pc.1, pc.2, rfl, hhas, hown, hgr, by rw [hd], ?_⟩
          simp only [hhas, hown, hgr, hd, Bool.not_true, Bool.false_eq_true, if_false]
          cases (s.threads.addCapability newOwner pc.2) with
          | mk r ts => cases r <;> rfl

end CapSys

end Atom
