import Atom.Kernel.Syscall.Dispatch

/-!
# System calls — the kernel's invariant

The capability store of the running kernel keeps the representation invariant of the capability
system along every run: from boot, whatever threads `init_process.rs` starts, however the
scheduler ticks, whatever the timer interrupt wakes and whatever system calls the current thread
makes (`Kernel.inv_step`), and whatever calls the model does not run, as long as no write through
a user pointer lands in the kernel half (`Kernel.inv_of_confinedReachable`).  So the consistency the capability system has in its own
reachable states holds of the kernel's (`Kernel.capStore_consistent_kernel`).

* The scheduler's calls change the states of threads and nothing else of them
  (`SchedSys.map_onTimerTick`), and the invariant reads of a thread only its id and its table
  (`CapSys.CapInv.of_tables`).
* The capability calls keep the invariant and the list of thread ids (`CapSys.Keeps`).
* A thread joins the list at the id the counter of `ThreadId::new` holds, above every id already
  there (`Kernel.Inv.idsBelow`), with an empty table.
* The IPC and user-pointer calls change only the IPC manager (`Kernel.IpcOnly`); the timer
  interrupt changes the IPC manager and wakes threads.
-/

namespace Atom

open Lib Lib.KeyedList Syscall

/-! ### The capability calls -/

namespace CapSys

variable {s : CapSys}

/-- `s'` keeps the invariant, and the thread ids of `s`. -/
def Keeps (s s' : CapSys) : Prop :=
  CapInv s' ∧ s'.threads.map Thread.id = s.threads.map Thread.id

theorem Keeps.refl (hi : CapInv s) : Keeps s s := ⟨hi, rfl⟩

theorem keeps_createOwnedRoot (hi : CapInv s) (resource : ResourceType) (owner : ThreadId)
    (permissions : CapPermissions) : Keeps s (s.createOwnedRoot resource owner permissions).2 :=
  ⟨createOwnedRoot_inv hi resource owner permissions, ids_createOwnedRoot s resource owner permissions⟩

theorem keeps_deriveCapability (hi : CapInv s) (parentHandle : CapHandle)
    (ownerThread newOwner : ThreadId) (reducedPerms : CapPermissions) :
    Keeps s (s.deriveCapability parentHandle ownerThread newOwner reducedPerms).2 :=
  ⟨deriveCapability_inv hi parentHandle ownerThread newOwner reducedPerms,
    ids_deriveCapability s parentHandle ownerThread newOwner reducedPerms⟩

theorem keeps_transferCapability (hi : CapInv s) (capHandle : CapHandle)
    (sourceThread targetThread : ThreadId) :
    Keeps s (s.transferCapability capHandle sourceThread targetThread).2 :=
  ⟨transferCapability_inv hi capHandle sourceThread targetThread,
    ids_transferCapability s capHandle sourceThread targetThread⟩

theorem keeps_revoke (hi : CapInv s) (handle : CapHandle) (revoker : ThreadId) :
    Keeps s (s.revoke handle revoker).2 :=
  ⟨revoke_inv hi handle revoker, ids_revoke hi handle revoker⟩

end CapSys

namespace Syscall

open CapSys

variable {s : CapSys}

theorem sysCapCreate_keeps (hi : CapInv s) (caller : Option ThreadId)
    (resourceType resourceId permissions : UInt64) :
    Keeps s (sysCapCreate s caller resourceType resourceId permissions).2 := by
  cases caller with
  | none => exact .refl hi
  | some caller =>
      rcases sysCapCreate_state caller resourceType resourceId permissions with
        h | ⟨resource, perms, h⟩ <;> rw [h]
      · exact .refl hi
      · exact keeps_createOwnedRoot hi resource caller perms

theorem sysCapRevoke_keeps (hi : CapInv s) (caller : Option ThreadId) (handleRaw : UInt64) :
    Keeps s (sysCapRevoke s caller handleRaw).2 := by
  cases caller with
  | none => exact .refl hi
  | some caller =>
      rw [sysCapRevoke_state]
      exact keeps_revoke hi _ caller

theorem sysCapDerive_keeps (hi : CapInv s) (caller : Option ThreadId)
    (parentHandleRaw newOwnerRaw reducedPerms : UInt64) :
    Keeps s (sysCapDerive s caller parentHandleRaw newOwnerRaw reducedPerms).2 := by
  cases caller with
  | none => exact .refl hi
  | some caller =>
      rw [sysCapDerive_state]
      exact keeps_deriveCapability hi _ caller _ _

theorem sysCapTransfer_keeps (hi : CapInv s) (caller : Option ThreadId)
    (capHandleRaw targetTidRaw : UInt64) :
    Keeps s (sysCapTransfer s caller capHandleRaw targetTidRaw).2 := by
  cases caller with
  | none => exact .refl hi
  | some caller =>
      rw [sysCapTransfer_state]
      split_ifs
      · exact .refl hi
      · exact keeps_transferCapability hi _ caller _

end Syscall

/-! ### The invariant -/

namespace Kernel

open CapSys

/-- **The kernel's invariant**: the capability store's representation invariant, and every
thread's id below the counter `ThreadId::new` draws from. -/
structure Inv (k : Kernel) : Prop where
  caps : CapInv k.caps
  idsBelow : ∀ t ∈ k.caps.threads, t.id < k.nextThreadId

/-- What the capability invariant reads of a thread. -/
def idTable (t : Thread) : ThreadId × CapabilityTable := (t.id, t.capabilityTable)

theorem stateBlind_idTable : SchedSys.StateBlind idTable := fun _ _ => rfl

variable {k k' : Kernel}

theorem Inv.of_keeps (hi : k.Inv) (hc : Keeps k.caps k'.caps)
    (hn : k'.nextThreadId = k.nextThreadId) : k'.Inv := by
  refine ⟨hc.1, fun t ht => ?_⟩
  have hmem : t.id ∈ k.caps.threads.map Thread.id := hc.2 ▸ List.mem_map_of_mem ht
  obtain ⟨t', ht', he⟩ := List.mem_map.mp hmem
  rw [hn, ← he]
  exact hi.idsBelow t' ht'

/-- A scheduler call that changes only what the invariant does not read keeps it. -/
theorem Inv.setSchedSys (hi : k.Inv) {s : SchedSys}
    (hs : s.threads.map idTable = k.caps.threads.map idTable) : (k.setSchedSys s).Inv := by
  have hids : s.threads.map Thread.id = k.caps.threads.map Thread.id := by
    simpa [List.map_map, Function.comp_def, idTable] using congrArg (List.map Prod.fst) hs
  exact hi.of_keeps ⟨hi.caps.of_tables hs, hids⟩ rfl

theorem Inv.tick (hi : k.Inv) : k.tick.Inv :=
  hi.setSchedSys (SchedSys.map_onTimerTick stateBlind_idTable)

theorem Inv.setThreadState (hi : k.Inv) (id : ThreadId) (state : ThreadState) :
    (k.setSchedSys (k.schedSys.setThreadState id state)).Inv :=
  hi.setSchedSys (SchedSys.map_setThreadState stateBlind_idTable id state)

theorem Inv.markReady (hi : k.Inv) (id : ThreadId) :
    (k.setSchedSys (k.schedSys.markReady id)).Inv := by
  refine hi.setSchedSys ?_
  rw [SchedSys.markReady_threads]
  exact SchedSys.map_setThreadState stateBlind_idTable id .ready

theorem Inv.wake (hi : k.Inv) (receiverId : ThreadId) : (k.wake receiverId).Inv := by
  refine hi.setSchedSys ?_
  show (k.schedSys.markReady receiverId).threads.map idTable = _
  rw [SchedSys.markReady_threads]
  exact SchedSys.map_setThreadState stateBlind_idTable receiverId .ready

theorem lookup_nextThreadId (hi : k.Inv) : k.caps.threads.lookup k.nextThreadId = none :=
  lookup_eq_none_iff.mpr fun t ht he => Nat.lt_irrefl _ (he ▸ hi.idsBelow t ht)

/-- A thread at the next id, with an empty table, joins the list, and the counter moves past
it. -/
theorem Inv.add (hi : k.Inv) {t : Thread} (hid : t.id = k.nextThreadId)
    (hempty : t.capabilityTable.capabilities = ∅) :
    Inv { k with nextThreadId := k.nextThreadId + 1,
                 caps := { k.caps with threads := k.caps.threads.add t } } := by
  refine ⟨hi.caps.add (hid ▸ lookup_nextThreadId hi) hempty, fun t' ht' => ?_⟩
  rcases List.mem_append.mp ht' with ht' | ht'
  · exact Nat.lt_succ_of_lt (hi.idsBelow t' ht')
  · rw [List.mem_singleton.mp ht', hid]
    exact Nat.lt_succ_self _

/-- The calls that change only the IPC manager. -/
def IpcOnly (k k' : Kernel) : Prop := ∃ ipc, k' = { k with ipc }

theorem Inv.ipcOnly (hi : k.Inv) (h : IpcOnly k k') : k'.Inv := by
  obtain ⟨ipc, rfl⟩ := h
  exact hi.of_keeps (.refl hi.caps) rfl

theorem Inv.ipcOnTimerTick (hi : k.Inv) (currentTicks : UInt64) :
    (k.ipcOnTimerTick currentTicks).Inv := by
  unfold Kernel.ipcOnTimerTick
  exact foldl_wake (P := Kernel.Inv) (fun _ t h => h.wake t) _ _ (hi.ipcOnly ⟨_, rfl⟩)

/-! ### Boot and the threads the kernel starts -/

theorem inv_empty : empty.Inv := ⟨capInv_empty, fun _ ht => absurd ht List.not_mem_nil⟩

theorem inv_boot (idleEntry idleStackTop cr3 : UInt64) : (boot idleEntry idleStackTop cr3).Inv :=
  (inv_empty.add (t := Thread.new 1 idleEntry idleStackTop (4 * 4096) cr3 .idle) rfl rfl).setSchedSys
    (SchedSys.map_setThreadState stateBlind_idTable _ _)

theorem Inv.spawnInit (hi : k.Inv) (entryPoint userStack kernelStack cr3 : UInt64)
    (kernelStackSize : Nat) : (k.spawnInit entryPoint userStack kernelStack cr3 kernelStackSize).Inv :=
  (hi.add (t := ⟨k.nextThreadId, .ready, CpuContext.newUser entryPoint userStack cr3, kernelStack,
    kernelStackSize, cr3, .normal, CapabilityTable.new k.nextThreadId⟩) rfl rfl).markReady _

theorem Inv.spawnService (hi : k.Inv) (entryPoint stackTop : UInt64) (stackSize : Nat)
    (priority : ThreadPriority) : (k.spawnService entryPoint stackTop stackSize priority).Inv :=
  (hi.add (t := Thread.new k.nextThreadId entryPoint stackTop stackSize 0 priority) rfl rfl).markReady _

/-! ### Each system call keeps the invariant -/

section Calls

variable (env : Env) (a0 a1 a2 a3 a4 : UInt64)

theorem Inv.sysThreadExit (hi : k.Inv) : (k.sysThreadExit a0).kernel.Inv := by
  unfold Kernel.sysThreadExit
  split
  · exact (hi.setThreadState _ _).tick
  · exact hi

theorem Inv.sysThreadSleep (hi : k.Inv) : (k.sysThreadSleep a0).kernel.Inv := by
  unfold Kernel.sysThreadSleep
  split_ifs
  · exact hi.tick
  · split
    · exact (hi.setThreadState _ _).tick
    · exact hi

theorem Inv.sysThreadCreate (hi : k.Inv) : (k.sysThreadCreate env a0 a1 a2).kernel.Inv := by
  unfold Kernel.sysThreadCreate
  split_ifs
  · exact hi
  · split
    · exact hi
    · split_ifs
      · exact hi
      · split
        · exact hi
        · -- `Thread::new` at the next id, with an empty table
          exact (hi.add (t := Thread.new k.nextThreadId a0 _ KERNEL_STACK_SIZE 0 .normal) rfl
            rfl).of_keeps (.refl (hi.add rfl rfl).caps) rfl

theorem Inv.sysIpcCreatePort (hi : k.Inv) : k.sysIpcCreatePort.kernel.Inv := by
  unfold Kernel.sysIpcCreatePort
  split
  · exact hi
  · exact hi.of_keeps (keeps_createOwnedRoot hi.caps _ _ _) rfl

theorem Inv.sysCapCreate (hi : k.Inv) : (k.sysCapCreate a0 a1 a2).kernel.Inv :=
  hi.of_keeps (Syscall.sysCapCreate_keeps hi.caps _ a0 a1 a2) rfl

theorem Inv.sysCapRevoke (hi : k.Inv) : (k.sysCapRevoke a0).kernel.Inv :=
  hi.of_keeps (Syscall.sysCapRevoke_keeps hi.caps _ a0) rfl

theorem Inv.sysCapDerive (hi : k.Inv) : (k.sysCapDerive a0 a1 a2).kernel.Inv :=
  hi.of_keeps (Syscall.sysCapDerive_keeps hi.caps _ a0 a1 a2) rfl

theorem Inv.sysCapTransfer (hi : k.Inv) : (k.sysCapTransfer a0 a1).kernel.Inv :=
  hi.of_keeps (Syscall.sysCapTransfer_keeps hi.caps _ a0 a1) rfl

theorem ipcOnly_sysIpcClosePort : IpcOnly k (k.sysIpcClosePort a0).kernel := by
  unfold sysIpcClosePort
  repeat' split
  all_goals exact ⟨_, rfl⟩

theorem ipcOnly_sysIpcSend : IpcOnly k (k.sysIpcSend env a0 a1 a2 a3).kernel := by
  unfold sysIpcSend
  repeat' split
  all_goals exact ⟨_, rfl⟩

theorem ipcOnly_sysIpcSendAsync : IpcOnly k (k.sysIpcSendAsync env a0 a1 a2 a3).kernel := by
  unfold sysIpcSendAsync
  dsimp only
  repeat' split
  all_goals exact ⟨_, rfl⟩

theorem ipcOnly_sysIpcTryRecv : IpcOnly k (k.sysIpcTryRecv env a0 a1 a2).kernel := by
  unfold sysIpcTryRecv
  dsimp only
  repeat' split
  all_goals exact ⟨_, rfl⟩

theorem ipcOnly_sysIpcSendWithCap : IpcOnly k (k.sysIpcSendWithCap env a0 a1 a2 a3 a4).kernel := by
  unfold sysIpcSendWithCap
  dsimp only
  repeat' split
  all_goals exact ⟨_, rfl⟩

theorem ipcOnly_sysIpcPortStats : IpcOnly k (k.sysIpcPortStats a0 a1).kernel := by
  unfold sysIpcPortStats
  split <;> exact ⟨_, rfl⟩

theorem ipcOnly_sysGetFramebuffer : IpcOnly k (k.sysGetFramebuffer env a0).kernel := by
  unfold sysGetFramebuffer
  repeat' split
  all_goals exact ⟨_, rfl⟩

theorem ipcOnly_sysDebugLog : IpcOnly k (k.sysDebugLog a0 a1).kernel := by
  unfold sysDebugLog
  split <;> exact ⟨_, rfl⟩

theorem ipcOnly_sysCapQueryChildren : IpcOnly k (k.sysCapQueryChildren a0 a1 a2).kernel := by
  unfold sysCapQueryChildren
  dsimp only
  repeat' split
  all_goals exact ⟨_, rfl⟩

theorem Inv.sysIpcSendBatch (hi : k.Inv) : (k.sysIpcSendBatch env a0 a1 a2).kernel.Inv := by
  unfold Kernel.sysIpcSendBatch
  split_ifs
  · exact hi
  · exact hi
  · split
    · exact hi
    · split
      -- the receiver the batch unblocks is woken
      · exact (hi.ipcOnly ⟨_, rfl⟩).wake _
      all_goals exact hi.ipcOnly ⟨_, rfl⟩

theorem ipcOnly_sysIpcRecvBatch : IpcOnly k (k.sysIpcRecvBatch env a0 a1 a2).kernel := by
  unfold sysIpcRecvBatch
  repeat' split
  all_goals exact ⟨_, rfl⟩

theorem ipcOnly_recvAfterBlock (portId : PortId) (caller : ThreadId) :
    IpcOnly k (k.recvAfterBlock env portId caller a0 a1).kernel := by
  unfold recvAfterBlock
  split <;> exact ⟨_, rfl⟩

theorem Inv.sysIpcRecv (hi : k.Inv) {o : Outcome} (h : k.sysIpcRecv env a0 a1 a2 a3 = some o) :
    o.kernel.Inv := by
  unfold Kernel.sysIpcRecv at h
  split at h
  · cases h
    exact hi
  · dsimp only at h
    split at h
    · cases h
      exact hi.ipcOnly ⟨_, rfl⟩
    · split_ifs at h
      · cases h
        exact hi.ipcOnly ⟨_, rfl⟩
      · split at h
        -- the caller blocked, the scheduler ticked and chose it again
        · split_ifs at h
          cases h
          refine Inv.ipcOnly ?_ (ipcOnly_recvAfterBlock _ a1 a2 _ _)
          exact ((hi.ipcOnly ⟨_, rfl⟩).setThreadState _ _).tick
        all_goals
          cases h
          exact hi.ipcOnly ⟨_, rfl⟩
    · cases h
      exact hi.ipcOnly ⟨_, rfl⟩

theorem ipcOnly_sysIpcWaitAny {o : Outcome} (h : k.sysIpcWaitAny env a0 a1 a2 = some o) :
    IpcOnly k o.kernel := by
  unfold Kernel.sysIpcWaitAny at h
  dsimp only at h
  repeat' split at h
  -- a path that blocks gives no outcome
  all_goals cases h <;> exact ⟨_, rfl⟩

/-- **Every system call the dispatcher runs keeps the invariant.** -/
theorem Inv.dispatch (hi : k.Inv) {num : UInt64} {o : Outcome}
    (h : k.dispatch env num a0 a1 a2 a3 a4 = some o) : o.kernel.Inv :=
  holds_of_dispatch h hi.tick (hi.sysThreadExit a0) (hi.sysThreadSleep a0)
    (hi.sysThreadCreate env a0 a1 a2) hi.sysIpcCreatePort (hi.ipcOnly (ipcOnly_sysIpcClosePort a0))
    (hi.ipcOnly (ipcOnly_sysIpcSend env a0 a1 a2 a3)) (fun _ => hi.sysIpcRecv env a0 a1 a2 a3)
    (hi.sysCapCreate a0 a1 a2) (hi.sysCapRevoke a0) (hi.sysCapDerive a0 a1 a2)
    (hi.sysCapTransfer a0 a1) (hi.ipcOnly (ipcOnly_sysIpcSendWithCap env a0 a1 a2 a3 a4))
    (hi.ipcOnly (ipcOnly_sysCapQueryChildren a0 a1 a2)) (hi.sysIpcSendBatch env a0 a1 a2)
    (hi.ipcOnly (ipcOnly_sysIpcRecvBatch env a0 a1 a2))
    (hi.ipcOnly (ipcOnly_sysIpcSendAsync env a0 a1 a2 a3))
    (hi.ipcOnly (ipcOnly_sysIpcTryRecv env a0 a1 a2)) (hi.ipcOnly (ipcOnly_sysIpcPortStats a0 a1))
    (hi.ipcOnly (ipcOnly_sysGetFramebuffer env a0)) (hi.ipcOnly (ipcOnly_sysDebugLog a0 a1))
    (fun _ h => hi.ipcOnly (ipcOnly_sysIpcWaitAny env a0 a1 a2 h)) hi

end Calls

/-! ### Every run -/

theorem inv_step (hi : k.Inv) {a : KernelCall} (hst : KernelStep k a k') : k'.Inv := by
  cases hst with
  | spawnInit entryPoint userStack kernelStack cr3 kernelStackSize =>
      exact hi.spawnInit entryPoint userStack kernelStack cr3 kernelStackSize
  | spawnService entryPoint stackTop stackSize priority =>
      exact hi.spawnService entryPoint stackTop stackSize priority
  | timerTick => exact hi.tick
  | timerInterrupt currentTicks => exact hi.ipcOnTimerTick currentTicks
  | syscall env num a0 a1 a2 a3 a4 _ o h => exact hi.dispatch env a0 a1 a2 a3 a4 h

/-! ### Runs with the calls the model does not run

`KernelStep` runs the handlers `dispatch` models.  A running kernel also takes the other system
calls (`sys_cap_list`, the shared-region and address-space calls, the device calls, and so on)
and receives that block and hand the processor on.  None of them calls a capability mutator or
`ThreadId::new`: they change the states of threads, the scheduler and the IPC manager.  And
every handler writes through its pointer arguments after checking only that they are not null,
so a pointer into the kernel half would overwrite kernel data the model does not lay out in
memory.  A confined run is one whose writes all stay in the user half. -/

/-- Every write of a call through a user pointer lies at or below `USER_CANONICAL_MAX`. -/
def WritesConfined (k : Kernel) : KernelCall → Prop
  | .syscall env num a0 a1 a2 a3 a4 =>
      ∀ o, k.dispatch env num a0 a1 a2 a3 a4 = some o → ∀ w ∈ o.accesses, w.write = true → w.Confined
  | _ => True

/-- A move outside `KernelStep`: the scheduler, with every thread's id and table as they were,
and the IPC manager change; the capability store, the thread list's ids and tables and the
counter of `ThreadId::new` do not. -/
def OtherMove (k k' : Kernel) : Prop :=
  ∃ s ipc, s.threads.map idTable = k.caps.threads.map idTable ∧ k' = { k.setSchedSys s with ipc }

/-- A step of a confined run: a modelled move whose writes stay in the user half, or another
move. -/
inductive ConfinedStep : Kernel → Option KernelCall → Kernel → Prop where
  | call {k k' : Kernel} {a : KernelCall} (hst : KernelStep k a k') (hw : k.WritesConfined a) :
      ConfinedStep k (some a) k'
  | other {k k' : Kernel} (h : OtherMove k k') : ConfinedStep k none k'

/-- The kernels a confined run from some boot reaches. -/
def IsConfinedReachable (k : Kernel) : Prop :=
  ∃ idleEntry idleStackTop cr3, Reachable ConfinedStep (boot idleEntry idleStackTop cr3) k

theorem Inv.otherMove (hi : k.Inv) (h : OtherMove k k') : k'.Inv := by
  obtain ⟨s, ipc, hs, rfl⟩ := h
  exact (hi.setSchedSys hs).ipcOnly ⟨ipc, rfl⟩

theorem inv_confinedStep (hi : k.Inv) {a : Option KernelCall} (hst : ConfinedStep k a k') :
    k'.Inv := by
  cases hst with
  | call hst _ => exact inv_step hi hst
  | other h => exact hi.otherMove h

theorem inv_of_confinedReachable (hk : k.IsConfinedReachable) : k.Inv := by
  obtain ⟨idleEntry, idleStackTop, cr3, hrun⟩ := hk
  exact Reachable.induct (inv_boot idleEntry idleStackTop cr3)
    (fun _ _ _ hi hst => inv_confinedStep hi hst) hrun

/-- `initHoldsThreadCap` is reached by a confined run: the system call on the way,
`sys_cap_create`, writes through no pointer. -/
theorem initHoldsThreadCap_confinedReachable : initHoldsThreadCap.IsConfinedReachable := by
  have hw : initRunning.WritesConfined (.syscall runEnv SYS_CAP_CREATE 0 2 2 0 0) := by
    intro o h w hw
    rw [dispatch_sysCapCreate, Option.some_inj] at h
    subst h
    exact absurd hw List.not_mem_nil
  refine ⟨0x100000, 0x204000, 0x1000, ?_⟩
  refine ((((Reachable.init.next _ (.call (KernelStep.spawnInit _ _ _ _ _ _) trivial)).next _
    (.call (KernelStep.spawnService _ _ _ _ _) trivial)).next _
    (.call (KernelStep.timerTick _) trivial)).next _ (.call ?_ hw))
  exact KernelStep.syscall _ runEnv SYS_CAP_CREATE 0 2 2 0 0 (by decide) _
    (dispatch_sysCapCreate _ _ _ _ _ _ _)

end Kernel

end Atom
