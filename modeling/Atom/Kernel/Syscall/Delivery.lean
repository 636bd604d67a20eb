import Atom.Kernel.Syscall.Dispatch

/-!
# System calls — what becomes of a queued message

What the IPC system calls do with a message once a send has queued it.  A message leaves its
queue through `sys_ipc_try_recv`, `sys_ipc_recv`, `sys_ipc_recv_batch` and `sys_ipc_wait_any`;
only the first two copy it to their caller.  And a blocking receive leaves its caller behind as
the port's waiter.

* `sysIpcWaitAny_asyncSent`: `sys_ipc_wait_any` takes the message it reports off the queue and
  copies none of it, in a run of the kernel.
* `sysIpcRecv_childAgain`: a `sys_ipc_recv` that blocked returns with its caller still the
  port's blocked receiver and a waiter on it, and the next blocking receive on that port fails
  with `EBUSY`.
-/

namespace Atom

open Lib Syscall

namespace Kernel

/-! ### The batch calls -/

/-! ### Polling -/

/-! ### Blocking -/

/-! ### Two runs -/

/-- The environment of the run below: the port id `1` at `0x600000`, four bytes `0xAB` from
`0x600100` on, no shared region, no page to allocate, no framebuffer, no tick yet. -/
def waitEnv : Env :=
  ⟨fun a => if a = 0x600000 then 1 else if 0x600100 ≤ a ∧ a < 0x600104 then 0xAB else 0,
    fun _ => none, none, none, 0⟩

/-- The init process opens port 1 and sends four bytes on it (`SYS_IPC_SEND_ASYNC`). -/
def asyncSent : Kernel :=
  (initRunning.sysIpcCreatePort.kernel.sysIpcSendAsync waitEnv 1 7 0x600100 4).kernel

theorem asyncSent_reachable : asyncSent.IsReachable :=
  (initRunning_reachable.next (KernelStep.syscall _ waitEnv SYS_IPC_CREATE_PORT 0 0 0 0 0
    (by decide) _ (dispatch_sysIpcCreatePort _ _ _ _ _ _ _))).next
    (KernelStep.syscall _ waitEnv SYS_IPC_SEND_ASYNC 1 7 0x600100 4 0 (by decide) _
      (dispatch_sysIpcSendAsync _ _ _ _ _ _ _))

/-- The message queued with the sender's four bytes is taken by `SYS_IPC_WAIT_ANY`, which
returns the index `0` and writes no user memory; a `SYS_IPC_TRY_RECV` after it finds nothing. -/
theorem sysIpcWaitAny_asyncSent :
    asyncSent.IsReachable ∧
    asyncSent.ipc.queue 1 = [Message.new 2 7 [0xAB, 0xAB, 0xAB, 0xAB]] ∧
    (asyncSent.dispatch waitEnv SYS_IPC_WAIT_ANY 0x600000 1 0 0 0).map
        (fun o => (o.ret, o.kernel.ipc.queue 1, o.accesses)) =
      some (0, [], [⟨0x600000, 8, false⟩]) ∧
    (asyncSent.dispatch waitEnv SYS_IPC_WAIT_ANY 0x600000 1 0 0 0).map
        (fun o => (o.kernel.sysIpcTryRecv waitEnv 1 0x700000 64).ret) = some EWOULDBLOCK := by
  refine ⟨asyncSent_reachable, ?_, ?_, ?_⟩ <;> decide

/-- Six ticks after `childRunning`, thread 4 runs again, at the head of its queue. -/
def childAgain : Kernel := childRunning.ticks 6

theorem childAgain_reachable : childAgain.IsReachable := childRunning_reachable.ticks 6

/-- Thread 4's receive on port 1 from `childAgain` is a step of the kernel. -/
theorem childAgain_recv_reachable {o : Outcome}
    (ho : childAgain.dispatch runEnv SYS_IPC_RECV 1 0 0 10 0 = some o) : o.kernel.IsReachable :=
  childAgain_reachable.next (KernelStep.syscall _ _ _ _ _ _ _ _ (by with_unfolding_all decide) _ ho)

/-- Thread 4 receives on the init process's empty port 1 with a timeout: it blocks, the tick
chooses it again, and the call returns `ETIMEDOUT` with the thread still registered as the
port's waiter; the same receive again fails with `EBUSY`. -/
theorem sysIpcRecv_childAgain :
    childAgain.IsReachable ∧ childAgain.currentThread = some 4 ∧
    (childAgain.dispatch runEnv SYS_IPC_RECV 1 0 0 10 0).map (fun o =>
        (o.ret, o.kernel.currentThread, o.kernel.ipc.waitingThreads.lookup 4,
          (o.kernel.dispatch runEnv SYS_IPC_RECV 1 0 0 10 0).map Outcome.ret)) =
      some (ETIMEDOUT, some 4, some ⟨1, some 1⟩, some EBUSY) ∧
    ∀ o, childAgain.dispatch runEnv SYS_IPC_RECV 1 0 0 10 0 = some o → o.kernel.IsReachable := by
  exact ⟨childAgain_reachable, by with_unfolding_all decide, by with_unfolding_all decide,
    fun _ ho => childAgain_recv_reachable ho⟩

end Kernel

end Atom
