import Atom.Kernel.Ipc.Deadlock
import Atom.Kernel.Syscall.Invariant
import Atom.Kernel.Syscall.Delivery

/-!
# System calls — the priorities of waiters and owners

`IpcManager::block_recv` records the effective priority of the thread that blocks on a port as
the port's `max_waiter_priority`, and the scheduler keeps a base and an effective priority for
each thread.  `boost_priority`, which would pass a waiter's priority on to the port's owner, is
never called; the owner runs at least at the recorded priority all the same.  Only
`Scheduler::init` (the idle thread, at `Idle`), `Scheduler::add_thread` (from
`sys_thread_create`, at `Normal`) and `restore_original_priority` write the maps, so every
thread but the idle thread runs at `Normal`; no waiter is recorded above `Normal`; and the idle
thread, which makes no system call, owns no port (`Kernel.PriorityInv`).

* `Kernel.priorityInv_of_reachable`: the invariant holds along every run.
* `Kernel.waiterPriority_le_owner`: in every reachable state the owner of a port runs at least
  at the priority recorded for the waiter on it; a thread woken by `send_batch`, or by a timeout
  in `handle_timeouts`, runs at its base priority again.
-/

namespace Atom

open Lib

/-! ### The owners of ports -/

namespace IpcManager

/-- No port is owned by the thread `idle` names. -/
def OwnersAvoid (idle : Option ThreadId) (m : IpcManager) : Prop :=
  ∀ p o, m.portOwner p = some o → idle ≠ some o

variable {idle : Option ThreadId} {m m' : IpcManager}

theorem OwnersAvoid.shrink (h : m.OwnersAvoid idle) (hs : Shrinks m m') : m'.OwnersAvoid idle :=
  fun p o ho => h p o (hs.owner p o ho)

theorem OwnersAvoid.createPort (h : m.OwnersAvoid idle) {owner : ThreadId}
    (howner : idle ≠ some owner) : (m.createPort owner).2.OwnersAvoid idle := by
  intro p o ho
  rw [portOwner_createPort] at ho
  split_ifs at ho
  · cases ho
    exact howner
  · exact h p o ho

theorem OwnersAvoid.blockRecv (h : m.OwnersAvoid idle) (portId : PortId) (caller : ThreadId)
    (priority : ThreadPriority) (deadline : Option UInt64) :
    (m.blockRecv portId caller priority deadline).2.OwnersAvoid idle := by
  intro p o ho
  rw [portOwner_blockRecv] at ho
  exact h p o ho

/-- The receiver `send_batch` hands back to be woken comes with a batch that was sent. -/
theorem sendBatch_woken {regionInfo : RegionId → Option Nat} {portId : PortId}
    {messages : List Message} {t : ThreadId} (h : (m.sendBatch regionInfo portId messages).2.2 = some t) :
    ∃ n ipc, m.sendBatch regionInfo portId messages = (.ok n, ipc, some t) := by
  rcases sendBatch_cases regionInfo portId messages with
    ⟨r, he⟩ | ⟨port, sizes, -, -, -, ⟨-, he⟩ | ⟨receiverId, -, he⟩⟩ <;> rw [he] at h ⊢
  · cases h
  · cases h
  · cases h
    exact ⟨_, _, rfl⟩

end IpcManager

/-! ### The invariant -/

namespace Kernel

/-- **The priority invariant**: the scheduler's maps hold `Normal`, or `Idle` for the idle
thread; no port records a waiter above `Normal`; the idle thread owns no port. -/
structure PriorityInv (k : Kernel) : Prop where
  sched : k.sched.PrioritiesOk
  waiters : k.ipc.WaitersBelow .normal
  owners : k.ipc.OwnersAvoid k.sched.idle

variable {k k' : Kernel}

theorem PriorityInv.setCaps (h : k.PriorityInv) (caps : CapSys) : (k.setCaps caps).PriorityInv :=
  ⟨h.sched, h.waiters, h.owners⟩

/-- A scheduler call that writes only allowed priorities and keeps the idle thread. -/
theorem PriorityInv.setSchedSys (h : k.PriorityInv) {s : SchedSys} (hs : s.sched.PrioritiesOk)
    (hidle : s.sched.idle = k.sched.idle) : (k.setSchedSys s).PriorityInv := by
  refine ⟨hs, h.waiters, ?_⟩
  show k.ipc.OwnersAvoid s.sched.idle
  rw [hidle]
  exact h.owners

theorem PriorityInv.tick (h : k.PriorityInv) : k.tick.PriorityInv :=
  h.setSchedSys (SchedSys.prioritiesOk_onTimerTick h.sched) (SchedSys.onTimerTick_priorities _).2.2

theorem PriorityInv.setThreadState (h : k.PriorityInv) (id : ThreadId) (state : ThreadState) :
    (k.setSchedSys (k.schedSys.setThreadState id state)).PriorityInv :=
  h.setSchedSys h.sched rfl

theorem PriorityInv.markReady (h : k.PriorityInv) (id : ThreadId) :
    (k.setSchedSys (k.schedSys.markReady id)).PriorityInv :=
  h.setSchedSys (SchedSys.prioritiesOk_markReady h.sched id) rfl

theorem PriorityInv.wake (h : k.PriorityInv) (t : ThreadId) : (k.wake t).PriorityInv :=
  h.setSchedSys ((SchedSys.prioritiesOk_markReady h.sched t).restoreOriginalPriority t) rfl

/-! ### What the IPC manager's calls leave -/

section Ipc

variable (regionInfo : RegionId → Option Nat) (portId : PortId) (caller : ThreadId)

/-- An IPC manager that keeps both of the invariant's IPC parts. -/
theorem PriorityInv.withIpc (h : k.PriorityInv) {ipc : IpcManager} (hw : ipc.WaitersBelow .normal)
    (ho : ipc.OwnersAvoid k.sched.idle) : { k with ipc }.PriorityInv :=
  ⟨h.sched, hw, ho⟩

/-- The manager a handler matches out of a call's result is the call's manager. -/
theorem PriorityInv.ipc_of_eq {α : Type} {x : α × IpcManager} {a : α} {ipc : IpcManager}
    (h : { k with ipc := x.2 }.PriorityInv) (hx : x = (a, ipc)) : { k with ipc }.PriorityInv := by
  subst hx
  exact h

theorem PriorityInv.send (h : k.PriorityInv) (message : Message) :
    { k with ipc := (k.ipc.send regionInfo portId message).2 }.PriorityInv :=
  h.withIpc (h.waiters.send regionInfo portId message)
    (h.owners.shrink (IpcManager.send_shrinks regionInfo portId message))

theorem PriorityInv.sendBatch (h : k.PriorityInv) (messages : List Message) :
    { k with ipc := (k.ipc.sendBatch regionInfo portId messages).2.1 }.PriorityInv :=
  h.withIpc (h.waiters.sendBatch regionInfo portId messages)
    (h.owners.shrink (IpcManager.sendBatch_shrinks regionInfo portId messages))

theorem PriorityInv.tryRecv (h : k.PriorityInv) :
    { k with ipc := (k.ipc.tryRecv regionInfo portId caller).2 }.PriorityInv :=
  h.withIpc (h.waiters.tryRecv regionInfo portId caller)
    (h.owners.shrink (IpcManager.tryRecv_shrinks regionInfo portId caller))

theorem PriorityInv.recvBatch (h : k.PriorityInv) (maxCount : Nat) :
    { k with ipc := (k.ipc.recvBatch regionInfo portId caller maxCount).2 }.PriorityInv :=
  h.withIpc (h.waiters.recvBatch regionInfo portId caller maxCount)
    (h.owners.shrink (IpcManager.recvBatch_shrinks regionInfo portId caller maxCount))

theorem PriorityInv.closePort (h : k.PriorityInv) :
    { k with ipc := (k.ipc.closePort portId caller).2 }.PriorityInv :=
  h.withIpc (h.waiters.closePort portId caller)
    (h.owners.shrink (IpcManager.closePort_shrinks portId caller))

/-- A caller waits at its effective priority, which is at most `Normal`. -/
theorem PriorityInv.blockRecv (h : k.PriorityInv) (deadline : Option UInt64) :
    { k with ipc := (k.ipc.blockRecv portId caller (k.sched.getPriority caller) deadline).2 }.PriorityInv :=
  h.withIpc (h.waiters.blockRecv portId caller (h.sched.getPriority_le caller) deadline)
    (h.owners.blockRecv portId caller _ deadline)

/-- The ports the polling loop of `sys_ipc_wait_any` tries, one `try_receive_message` each. -/
theorem PriorityInv.pollPorts : ∀ (m : IpcManager) (idx : Nat) (ports : List PortId),
    { k with ipc := m }.PriorityInv →
      { k with ipc := (pollPorts regionInfo caller m idx ports).2 }.PriorityInv
  | _, _, [], h => h
  | m, idx, portId :: rest, h => by
      have ht := h.tryRecv regionInfo portId caller
      unfold Kernel.pollPorts
      split
      · exact ht.ipc_of_eq ‹_›
      · exact PriorityInv.pollPorts _ (idx + 1) rest (ht.ipc_of_eq ‹_›)

/-- `ipc::on_timer_tick`: the released ports record no waiter, and every expired waiter is
woken. -/
theorem PriorityInv.ipcOnTimerTick (h : k.PriorityInv) (currentTicks : UInt64) :
    (k.ipcOnTimerTick currentTicks).PriorityInv := by
  unfold Kernel.ipcOnTimerTick
  have hreleased := h.withIpc (h.waiters.handleTimeouts currentTicks)
    (h.owners.shrink (IpcManager.handleTimeouts_shrinks currentTicks))
  exact foldl_wake (P := PriorityInv) (fun _ t h => h.wake t) _ _ hreleased

end Ipc

/-! ### Boot and the threads the kernel starts -/

theorem priorityInv_boot (idleEntry idleStackTop cr3 : UInt64) :
    (boot idleEntry idleStackTop cr3).PriorityInv := by
  -- before `sched::init` the maps are empty and no port exists
  have hnew : Scheduler.new.PrioritiesOk := fun x q hq => by
    simp [Scheduler.new, Finmap.lookup_empty] at hq
  refine ⟨SchedSys.prioritiesOk_init hnew rfl _, fun p port q hp => ?_, fun p o ho => ?_⟩
  · simp [boot, empty, setSchedSys, IpcManager.new, Finmap.lookup_empty] at hp
  · simp [boot, empty, setSchedSys, IpcManager.new, IpcManager.portOwner, Finmap.lookup_empty] at ho

/-- A thread joining the list with a new id: the maps are not touched. -/
theorem PriorityInv.withThreads (h : k.PriorityInv) (caps : CapSys) (n : ThreadId) :
    ({ k with nextThreadId := n, caps } : Kernel).PriorityInv :=
  ⟨h.sched, h.waiters, h.owners⟩

theorem PriorityInv.spawnInit (h : k.PriorityInv) (entryPoint userStack kernelStack cr3 : UInt64)
    (kernelStackSize : Nat) :
    (k.spawnInit entryPoint userStack kernelStack cr3 kernelStackSize).PriorityInv := by
  unfold Kernel.spawnInit
  exact (h.withThreads _ _).markReady _

theorem PriorityInv.spawnService (h : k.PriorityInv) (entryPoint stackTop : UInt64) (stackSize : Nat)
    (priority : ThreadPriority) :
    (k.spawnService entryPoint stackTop stackSize priority).PriorityInv := by
  unfold Kernel.spawnService
  exact (h.withThreads _ _).markReady _

/-! ### Each system call keeps the invariant -/

section Calls

variable (env : Env) (a0 a1 a2 a3 a4 : UInt64)

theorem PriorityInv.sysThreadExit (h : k.PriorityInv) : (k.sysThreadExit a0).kernel.PriorityInv := by
  unfold Kernel.sysThreadExit
  split
  · exact (h.setThreadState _ _).tick
  · exact h

theorem PriorityInv.sysThreadSleep (h : k.PriorityInv) : (k.sysThreadSleep a0).kernel.PriorityInv := by
  unfold Kernel.sysThreadSleep
  split_ifs
  · exact h.tick
  · split
    · exact (h.setThreadState _ _).tick
    · exact h

theorem PriorityInv.sysThreadCreate (h : k.PriorityInv) :
    (k.sysThreadCreate env a0 a1 a2).kernel.PriorityInv := by
  unfold Kernel.sysThreadCreate
  split_ifs
  · exact h
  · split
    · exact h
    · split_ifs
      · exact h
      · split
        · exact h
        · -- `Thread::new` at `Normal`, which `add_thread` writes to both maps
          exact ⟨SchedSys.prioritiesOk_addThread h.sched rfl, h.waiters, h.owners⟩

/-- The port a caller other than the idle thread creates is not owned by the idle thread. -/
theorem PriorityInv.sysIpcCreatePort (h : k.PriorityInv) (hcaller : k.currentThread ≠ k.sched.idle) :
    k.sysIpcCreatePort.kernel.PriorityInv := by
  unfold Kernel.sysIpcCreatePort
  split
  · exact h
  · next owner howner =>
      refine ⟨h.sched, h.waiters.createPort owner, h.owners.createPort fun hidle => ?_⟩
      exact hcaller (howner.trans hidle.symm)

theorem PriorityInv.sysIpcClosePort (h : k.PriorityInv) : (k.sysIpcClosePort a0).kernel.PriorityInv := by
  unfold Kernel.sysIpcClosePort
  split
  · exact h
  · split <;> exact (h.closePort _ _).ipc_of_eq ‹_›

theorem PriorityInv.sysIpcSend (h : k.PriorityInv) : (k.sysIpcSend env a0 a1 a2 a3).kernel.PriorityInv := by
  unfold Kernel.sysIpcSend
  -- the timeout only picks the error code
  split_ifs
  · exact h
  all_goals
    split
    · exact h
    · split <;> exact (h.send _ _ _).ipc_of_eq ‹_›

theorem PriorityInv.sysIpcSendAsync (h : k.PriorityInv) :
    (k.sysIpcSendAsync env a0 a1 a2 a3).kernel.PriorityInv := by
  unfold Kernel.sysIpcSendAsync
  dsimp only
  -- whether the payload is copied only changes the message
  split_ifs
  · exact h
  all_goals
    split
    · exact h
    · split <;> exact (h.send _ _ _).ipc_of_eq ‹_›

theorem PriorityInv.sysIpcSendWithCap (h : k.PriorityInv) :
    (k.sysIpcSendWithCap env a0 a1 a2 a3 a4).kernel.PriorityInv := by
  unfold Kernel.sysIpcSendWithCap
  dsimp only
  -- moving or granting the handle only changes the message
  split_ifs
  · exact h
  all_goals
    split
    · exact h
    · split_ifs
      any_goals exact h
      split <;> exact (h.send _ _ _).ipc_of_eq ‹_›

theorem PriorityInv.sysIpcTryRecv (h : k.PriorityInv) : (k.sysIpcTryRecv env a0 a1 a2).kernel.PriorityInv := by
  unfold Kernel.sysIpcTryRecv
  split
  · exact h
  · split <;> exact (h.tryRecv _ _ _).ipc_of_eq ‹_›

theorem PriorityInv.sysIpcRecvBatch (h : k.PriorityInv) :
    (k.sysIpcRecvBatch env a0 a1 a2).kernel.PriorityInv := by
  unfold Kernel.sysIpcRecvBatch
  split_ifs
  · exact h
  · exact h
  · split
    · exact h
    · split <;> exact (h.recvBatch _ _ _ _).ipc_of_eq ‹_›

theorem PriorityInv.sysIpcSendBatch (h : k.PriorityInv) :
    (k.sysIpcSendBatch env a0 a1 a2).kernel.PriorityInv := by
  unfold Kernel.sysIpcSendBatch
  split_ifs
  · exact h
  · exact h
  · split
    · exact h
    · next sender _ =>
        have hb := h.sendBatch env.regionInfo a0.toNat (batchMessages sender a2.toNat)
        split <;> rename_i heq <;> rw [heq] at hb
        -- the receiver the batch unblocks is woken
        · exact hb.wake _
        all_goals exact hb

theorem PriorityInv.recvAfterBlock (h : k.PriorityInv) (portId : PortId) (caller : ThreadId) :
    (k.recvAfterBlock env portId caller a0 a1).kernel.PriorityInv := by
  unfold Kernel.recvAfterBlock
  split <;> exact (h.tryRecv _ _ _).ipc_of_eq ‹_›

theorem PriorityInv.sysIpcRecv (h : k.PriorityInv) {o : Outcome}
    (ho : k.sysIpcRecv env a0 a1 a2 a3 = some o) : o.kernel.PriorityInv := by
  unfold Kernel.sysIpcRecv at ho
  split at ho
  · cases ho
    exact h
  · next caller _ =>
      dsimp only at ho
      have ht := h.tryRecv env.regionInfo a0.toNat caller
      split at ho
      · cases ho
        exact ht.ipc_of_eq ‹_›
      · next ipc heq =>
          have h₁ := ht.ipc_of_eq heq
          split_ifs at ho
          · cases ho
            exact h₁
          · have hb := h₁.blockRecv a0.toNat caller (recvDeadline env.ticks a3)
            split at ho
            -- blocked, the tick chose the caller again, and its receive ran once more
            · split_ifs at ho
              cases ho
              exact (((hb.ipc_of_eq ‹_›).setThreadState _ _).tick).recvAfterBlock env a1 a2 _ _
            all_goals
              cases ho
              exact hb.ipc_of_eq ‹_›
      · cases ho
        exact ht.ipc_of_eq ‹_›

theorem PriorityInv.sysIpcWaitAny (h : k.PriorityInv) {o : Outcome}
    (ho : k.sysIpcWaitAny env a0 a1 a2 = some o) : o.kernel.PriorityInv := by
  unfold Kernel.sysIpcWaitAny at ho
  dsimp only at ho
  split at ho
  · cases ho
    exact h
  · split at ho
    · cases ho
      exact h
    · next caller _ =>
        have hp := h.pollPorts env.regionInfo caller k.ipc 0
          ((List.range a1.toNat).map fun i => readU64 env.mem (a0 + UInt64.ofNat (8 * i)))
        split at ho
        · cases ho
          exact hp.ipc_of_eq ‹_›
        · split_ifs at ho
          cases ho
          exact hp.ipc_of_eq ‹_›

/-- The calls that leave the kernel as it was. -/
theorem PriorityInv.sysIpcPortStats (h : k.PriorityInv) : (k.sysIpcPortStats a0 a1).kernel.PriorityInv := by
  unfold Kernel.sysIpcPortStats
  split <;> exact h

theorem PriorityInv.sysGetFramebuffer (h : k.PriorityInv) :
    (k.sysGetFramebuffer env a0).kernel.PriorityInv := by
  unfold Kernel.sysGetFramebuffer
  repeat' split
  all_goals exact h

theorem PriorityInv.sysDebugLog (h : k.PriorityInv) : (k.sysDebugLog a0 a1).kernel.PriorityInv := by
  unfold Kernel.sysDebugLog
  split <;> exact h

theorem PriorityInv.sysCapQueryChildren (h : k.PriorityInv) :
    (k.sysCapQueryChildren a0 a1 a2).kernel.PriorityInv := by
  unfold Kernel.sysCapQueryChildren
  dsimp only
  repeat' split
  all_goals exact h

/-- **Every system call a thread other than the idle thread makes keeps the invariant.** -/
theorem PriorityInv.dispatch (h : k.PriorityInv) (hcaller : k.currentThread ≠ k.sched.idle)
    {num : UInt64} {o : Outcome} (ho : k.dispatch env num a0 a1 a2 a3 a4 = some o) :
    o.kernel.PriorityInv :=
  holds_of_dispatch ho h.tick (h.sysThreadExit a0) (h.sysThreadSleep a0)
    (h.sysThreadCreate env a0 a1 a2) (h.sysIpcCreatePort hcaller) (h.sysIpcClosePort a0)
    (h.sysIpcSend env a0 a1 a2 a3) (fun _ => h.sysIpcRecv env a0 a1 a2 a3) (h.setCaps _)
    (h.setCaps _) (h.setCaps _) (h.setCaps _) (h.sysIpcSendWithCap env a0 a1 a2 a3 a4)
    (h.sysCapQueryChildren a0 a1 a2) (h.sysIpcSendBatch env a0 a1 a2)
    (h.sysIpcRecvBatch env a0 a1 a2) (h.sysIpcSendAsync env a0 a1 a2 a3)
    (h.sysIpcTryRecv env a0 a1 a2) (h.sysIpcPortStats a0 a1) (h.sysGetFramebuffer env a0)
    (h.sysDebugLog a0 a1) (fun _ => h.sysIpcWaitAny env a0 a1 a2) h

end Calls

/-! ### Every run -/

theorem priorityInv_step (h : k.PriorityInv) {a : KernelCall} (hst : KernelStep k a k') :
    k'.PriorityInv := by
  cases hst with
  | spawnInit entryPoint userStack kernelStack cr3 kernelStackSize =>
      exact h.spawnInit entryPoint userStack kernelStack cr3 kernelStackSize
  | spawnService entryPoint stackTop stackSize priority =>
      exact h.spawnService entryPoint stackTop stackSize priority
  | timerTick => exact h.tick
  | timerInterrupt currentTicks => exact h.ipcOnTimerTick currentTicks
  | syscall env num a0 a1 a2 a3 a4 hcaller o ho => exact h.dispatch env a0 a1 a2 a3 a4 hcaller ho

theorem priorityInv_of_reachable (hk : k.IsReachable) : k.PriorityInv := by
  obtain ⟨idleEntry, idleStackTop, cr3, hrun⟩ := hk
  exact Reachable.induct (priorityInv_boot idleEntry idleStackTop cr3)
    (fun _ _ _ h hst => priorityInv_step h hst) hrun

/-! ### The priority of a woken thread -/

/-- `wake` ends in `restore_original_priority`: the woken thread's effective priority becomes its
base priority, and no other thread's changes. -/
theorem getPriority_wake (k : Kernel) (t t' : ThreadId) :
    (k.wake t).sched.getPriority t' =
      if t' = t then k.sched.getBasePriority t else k.sched.getPriority t' := by
  show ((k.sched.effectivePriorities.insert t (k.sched.getBasePriority t)).lookup t').getD _ = _
  by_cases ht : t' = t
  · subst ht
    simp [Finmap.lookup_insert]
  · simp [Finmap.lookup_insert_of_ne _ ht, ht, Scheduler.getPriority]

theorem getBasePriority_wake (k : Kernel) (t t' : ThreadId) :
    (k.wake t).sched.getBasePriority t' = k.sched.getBasePriority t' := rfl

theorem getPriority_wake_self (k : Kernel) (t : ThreadId) :
    (k.wake t).sched.getPriority t = (k.wake t).sched.getBasePriority t := by
  rw [getPriority_wake, if_pos rfl, getBasePriority_wake]

/-- A thread at its base priority stays there whoever is woken. -/
theorem getPriority_wake_of_eq {t : ThreadId}
    (h : k.sched.getPriority t = k.sched.getBasePriority t) (t' : ThreadId) :
    (k.wake t').sched.getPriority t = (k.wake t').sched.getBasePriority t := by
  rw [getPriority_wake, getBasePriority_wake]
  split_ifs with ht
  · rw [ht]
  · exact h

/-- Every waiter the loop of `handle_timeouts` wakes ends at its base priority, by induction on
the expired waiters. -/
theorem getPriority_foldl_wake : ∀ (expired : List (ThreadId × PortId)) (k : Kernel),
    ∀ e ∈ expired, (expired.foldl (fun k e => k.wake e.1) k).sched.getPriority e.1 =
      (expired.foldl (fun k e => k.wake e.1) k).sched.getBasePriority e.1
  | [], _, _, he => nomatch he
  | e' :: rest, k, e, he => by
      rw [List.foldl_cons]
      rcases List.mem_cons.mp he with rfl | hrest
      · -- woken here; the later wake-ups keep it at its base priority
        exact foldl_wake (P := fun k => k.sched.getPriority e.1 = k.sched.getBasePriority e.1)
          (fun _ t' h => getPriority_wake_of_eq h t') rest _ (getPriority_wake_self k e.1)
      · exact getPriority_foldl_wake rest _ e hrest

/-- The receiver a batch unblocks runs at its base priority after `sys_ipc_send_batch`. -/
theorem getPriority_sysIpcSendBatch (k : Kernel) (env : Env) {sender t : ThreadId}
    {portIdRaw messagesPtr count : UInt64} (hsender : k.currentThread = some sender)
    (hcount : count ≠ 0) (hmax : count ≤ MAX_BATCH_SIZE.toUInt64)
    (hwoken : (k.ipc.sendBatch env.regionInfo portIdRaw.toNat
      (batchMessages sender count.toNat)).2.2 = some t) :
    (k.sysIpcSendBatch env portIdRaw messagesPtr count).kernel.sched.getPriority t =
      (k.sysIpcSendBatch env portIdRaw messagesPtr count).kernel.sched.getBasePriority t := by
  obtain ⟨n, ipc, he⟩ := IpcManager.sendBatch_woken hwoken
  simp only [sysIpcSendBatch, hcount, if_false, UInt64.not_lt.mpr hmax, hsender, he]
  exact getPriority_wake_self _ t

/-! ### Waiters and owners -/

/-- **Waiters do not outrank owners, and a woken thread runs at its base priority**: in every
reachable state, the owner of a port on which another thread waits runs at least at the priority
the port records for its waiter; the receiver `sys_ipc_send_batch` wakes, and each waiter the
timeouts of `ipc::on_timer_tick` wake, runs at its base priority afterwards. -/
theorem waiterPriority_le_owner :
    (∀ k : Kernel, k.IsReachable → ∀ p port t info q, k.ipc.ports.lookup p = some port →
      k.ipc.waitingThreads.lookup t = some info → info.port = p → t ≠ port.owner →
      port.maxWaiterPriority = some q → q.toNat ≤ (k.sched.getPriority port.owner).toNat) ∧
    (∀ (k : Kernel) (env : Env) (sender t : ThreadId) (portIdRaw messagesPtr count : UInt64),
      k.currentThread = some sender → count ≠ 0 → count ≤ MAX_BATCH_SIZE.toUInt64 →
      (k.ipc.sendBatch env.regionInfo portIdRaw.toNat (batchMessages sender count.toNat)).2.2 =
        some t →
      (k.sysIpcSendBatch env portIdRaw messagesPtr count).kernel.sched.getPriority t =
        (k.sysIpcSendBatch env portIdRaw messagesPtr count).kernel.sched.getBasePriority t) ∧
    (∀ (k : Kernel) (currentTicks : UInt64), ∀ e ∈ (k.ipc.handleTimeouts currentTicks).1,
      (k.ipcOnTimerTick currentTicks).sched.getPriority e.1 =
        (k.ipcOnTimerTick currentTicks).sched.getBasePriority e.1) := by
  refine ⟨fun k hk p port _ _ q hport _ _ _ hq => ?_,
    fun k env _ _ _ _ _ hsender hcount hmax hwoken =>
      getPriority_sysIpcSendBatch k env hsender hcount hmax hwoken,
    fun k _ e he => getPriority_foldl_wake _ _ e he⟩
  -- the owner is not the idle thread, so it runs at `Normal`, at least any recorded waiter
  have hi := priorityInv_of_reachable hk
  have hidle : k.sched.idle ≠ some port.owner :=
    hi.owners p port.owner (by simp [IpcManager.portOwner, hport])
  rw [hi.sched.getPriority_normal hidle]
  exact hi.waiters p port q hport hq

/-- `childAgain` after thread 4's receive on port 1 with a timeout: the tick chose it again, and
it is still registered as the waiter of the init process's port (`sysIpcRecv_childAgain`). -/
def waitingOnPort1 : Kernel :=
  (childAgain.dispatch runEnv SYS_IPC_RECV 1 0 0 10 0).elim childAgain Outcome.kernel

theorem waitingOnPort1_reachable : waitingOnPort1.IsReachable := by
  have hsome : (childAgain.dispatch runEnv SYS_IPC_RECV 1 0 0 10 0).isSome = true := by
    with_unfolding_all decide
  obtain ⟨o, ho⟩ := Option.isSome_iff_exists.mp hsome
  have hk : waitingOnPort1 = o.kernel := by
    unfold waitingOnPort1
    rw [ho]
    rfl
  rw [hk]
  exact childAgain_recv_reachable ho

/-- Thread 4 waits on port 1, which thread 2 owns and which records `Normal` for its waiter;
thread 2 runs at least at `Normal`. -/
theorem waiterPriority_le_owner_waitingOnPort1 :
    waitingOnPort1.IsReachable ∧
    waitingOnPort1.ipc.waitingThreads.lookup 4 = some ⟨1, some 1⟩ ∧
    (waitingOnPort1.ipc.ports.lookup 1).map (fun port => (port.owner, port.maxWaiterPriority)) =
      some (2, some .normal) ∧
    ThreadPriority.normal.toNat ≤ (waitingOnPort1.sched.getPriority 2).toNat := by
  have hw : waitingOnPort1.ipc.waitingThreads.lookup 4 = some ⟨1, some 1⟩ := by
    with_unfolding_all decide
  have hp : (waitingOnPort1.ipc.ports.lookup 1).map (fun port => (port.owner, port.maxWaiterPriority)) =
      some (2, some .normal) := by with_unfolding_all decide
  refine ⟨waitingOnPort1_reachable, hw, hp, ?_⟩
  obtain ⟨port, hport, hpe⟩ := Option.map_eq_some_iff.mp hp
  obtain ⟨howner, hmax⟩ := Prod.mk.inj hpe
  rw [← howner]
  exact waiterPriority_le_owner.1 waitingOnPort1 waitingOnPort1_reachable 1 port 4 ⟨1, some 1⟩
    .normal hport hw rfl (by rw [howner]; decide) hmax

end Kernel

end Atom
