import Atom.Kernel.Syscall.User

/-!
# System calls — the dispatcher and the kernel's runs

`rust_syscall_dispatcher` over the handlers this development models, and the kernel as a
transition system: from the boot of `kernel.rs` (the idle thread and `sched::init`), any sequence
of the threads `init_process.rs` starts (the init process on a ring-3 context, service threads
from `Thread::new`), the ticks the service threads drive (`sched::drive_cooperative_tick`), timer
interrupts (`ipc::on_timer_tick`), and system calls made by the current thread when it is not the
idle thread (`KernelStep`).

* `dispatch_*` equations: each modelled number reaches its handler.
* `initRunning_reachable`: the init process runs.
* `sysThreadCreate_initHoldsThreadCap`: the init process mints a `Thread` capability with
  `WRITE` and creates a thread on a ring-0 context at an entry point of its choice.
* `sysIpcSend_childRunning`: a thread the init process created, which holds no capability, queues
  a message on the init process's port.
* `sysDebugLog_initRunning`: the init process has `sys_debug_log` read the kernel half.
-/

namespace Atom

open Lib Syscall

/-! ### The dispatcher -/

def SYS_THREAD_YIELD : UInt64 := 0
def SYS_THREAD_EXIT : UInt64 := 1
def SYS_THREAD_SLEEP : UInt64 := 2
def SYS_THREAD_CREATE : UInt64 := 3
def SYS_IPC_CREATE_PORT : UInt64 := 4
def SYS_IPC_CLOSE_PORT : UInt64 := 5
def SYS_IPC_SEND : UInt64 := 6
def SYS_IPC_RECV : UInt64 := 7
def SYS_CAP_CREATE : UInt64 := 8
def SYS_CAP_REVOKE : UInt64 := 10
def SYS_CAP_DERIVE : UInt64 := 11
def SYS_CAP_TRANSFER : UInt64 := 13
def SYS_IPC_SEND_WITH_CAP : UInt64 := 14
def SYS_CAP_QUERY_CHILDREN : UInt64 := 16
def SYS_IPC_SEND_BATCH : UInt64 := 21
def SYS_IPC_RECV_BATCH : UInt64 := 22
def SYS_IPC_SEND_ASYNC : UInt64 := 23
def SYS_IPC_TRY_RECV : UInt64 := 24
def SYS_IPC_PORT_STATS : UInt64 := 26
def SYS_GET_FRAMEBUFFER : UInt64 := 37
def SYS_DEBUG_LOG : UInt64 := 39
def SYS_IPC_WAIT_ANY : UInt64 := 43
/-- The last number `rust_syscall_dispatcher` knows, `SYS_GET_IRQ_COUNT`. -/
def SYS_GET_IRQ_COUNT : UInt64 := 44

namespace Kernel

/-- `rust_syscall_dispatcher`, for the handlers modelled here: `none` for a known number whose
handler is not modelled, or for a call that blocks and goes on only once its caller runs again;
`ENOSYS` for an unknown number. -/
def dispatch (k : Kernel) (env : Env) (num a0 a1 a2 a3 a4 : UInt64) : Option Outcome :=
  if num = SYS_THREAD_YIELD then some k.sysThreadYield
  else if num = SYS_THREAD_EXIT then some (k.sysThreadExit a0)
  else if num = SYS_THREAD_SLEEP then some (k.sysThreadSleep a0)
  else if num = SYS_THREAD_CREATE then some (k.sysThreadCreate env a0 a1 a2)
  else if num = SYS_IPC_CREATE_PORT then some k.sysIpcCreatePort
  else if num = SYS_IPC_CLOSE_PORT then some (k.sysIpcClosePort a0)
  else if num = SYS_IPC_SEND then some (k.sysIpcSend env a0 a1 a2 a3)
  else if num = SYS_IPC_RECV then k.sysIpcRecv env a0 a1 a2 a3
  else if num = SYS_CAP_CREATE then some (k.sysCapCreate a0 a1 a2)
  else if num = SYS_CAP_REVOKE then some (k.sysCapRevoke a0)
  else if num = SYS_CAP_DERIVE then some (k.sysCapDerive a0 a1 a2)
  else if num = SYS_CAP_TRANSFER then some (k.sysCapTransfer a0 a1)
  else if num = SYS_IPC_SEND_WITH_CAP then some (k.sysIpcSendWithCap env a0 a1 a2 a3 a4)
  else if num = SYS_CAP_QUERY_CHILDREN then some (k.sysCapQueryChildren a0 a1 a2)
  else if num = SYS_IPC_SEND_BATCH then some (k.sysIpcSendBatch env a0 a1 a2)
  else if num = SYS_IPC_RECV_BATCH then some (k.sysIpcRecvBatch env a0 a1 a2)
  else if num = SYS_IPC_SEND_ASYNC then some (k.sysIpcSendAsync env a0 a1 a2 a3)
  else if num = SYS_IPC_TRY_RECV then some (k.sysIpcTryRecv env a0 a1 a2)
  else if num = SYS_IPC_PORT_STATS then some (k.sysIpcPortStats a0 a1)
  else if num = SYS_GET_FRAMEBUFFER then some (k.sysGetFramebuffer env a0)
  else if num = SYS_DEBUG_LOG then some (k.sysDebugLog a0 a1)
  else if num = SYS_IPC_WAIT_ANY then k.sysIpcWaitAny env a0 a1 a2
  else if num > SYS_GET_IRQ_COUNT then some ⟨ENOSYS, k, []⟩
  else none

variable (k : Kernel) (env : Env) (a0 a1 a2 a3 a4 : UInt64)

theorem dispatch_sysIpcSend :
    k.dispatch env SYS_IPC_SEND a0 a1 a2 a3 a4 = some (k.sysIpcSend env a0 a1 a2 a3) := rfl

theorem dispatch_sysIpcCreatePort :
    k.dispatch env SYS_IPC_CREATE_PORT a0 a1 a2 a3 a4 = some k.sysIpcCreatePort := rfl

theorem dispatch_sysCapCreate :
    k.dispatch env SYS_CAP_CREATE a0 a1 a2 a3 a4 = some (k.sysCapCreate a0 a1 a2) := rfl

theorem dispatch_sysThreadCreate :
    k.dispatch env SYS_THREAD_CREATE a0 a1 a2 a3 a4 = some (k.sysThreadCreate env a0 a1 a2) := rfl

theorem dispatch_sysDebugLog :
    k.dispatch env SYS_DEBUG_LOG a0 a1 a2 a3 a4 = some (k.sysDebugLog a0 a1) := rfl

theorem dispatch_sysIpcSendAsync :
    k.dispatch env SYS_IPC_SEND_ASYNC a0 a1 a2 a3 a4 = some (k.sysIpcSendAsync env a0 a1 a2 a3) := rfl

/-- A property of the kernel holds after an `if` whose branches give it, branch by branch. -/
theorem holds_of_ite {P : Kernel → Prop} {c : Prop} [Decidable c] {a b : Option Outcome}
    {o : Outcome} (h : (if c then a else b) = some o) (ha : a = some o → P o.kernel)
    (hb : b = some o → P o.kernel) : P o.kernel := by
  split at h
  · exact ha h
  · exact hb h

/-- The same, for an `if` whose first branch is a `some`. -/
theorem holds_of_ite_some {P : Kernel → Prop} {c : Prop} [Decidable c] {a o : Outcome}
    {b : Option Outcome} (h : (if c then some a else b) = some o) (ha : P a.kernel)
    (hb : b = some o → P o.kernel) : P o.kernel := by
  refine holds_of_ite h (fun hsome => ?_) hb
  cases hsome
  exact ha

/-- **What a dispatched call can leave**: a property that every modelled handler's kernel has,
and the kernel itself (for `ENOSYS`), holds of every outcome of the dispatcher. -/
theorem holds_of_dispatch {P : Kernel → Prop} {k : Kernel} {env : Env}
    {num a0 a1 a2 a3 a4 : UInt64} {o : Outcome} (h : k.dispatch env num a0 a1 a2 a3 a4 = some o)
    (hyield : P k.sysThreadYield.kernel) (hexit : P (k.sysThreadExit a0).kernel)
    (hsleep : P (k.sysThreadSleep a0).kernel) (hcreate : P (k.sysThreadCreate env a0 a1 a2).kernel)
    (hcreatePort : P k.sysIpcCreatePort.kernel) (hclosePort : P (k.sysIpcClosePort a0).kernel)
    (hsend : P (k.sysIpcSend env a0 a1 a2 a3).kernel)
    (hrecv : ∀ o, k.sysIpcRecv env a0 a1 a2 a3 = some o → P o.kernel)
    (hcapCreate : P (k.sysCapCreate a0 a1 a2).kernel) (hrevoke : P (k.sysCapRevoke a0).kernel)
    (hderive : P (k.sysCapDerive a0 a1 a2).kernel) (htransfer : P (k.sysCapTransfer a0 a1).kernel)
    (hsendWithCap : P (k.sysIpcSendWithCap env a0 a1 a2 a3 a4).kernel)
    (hqueryChildren : P (k.sysCapQueryChildren a0 a1 a2).kernel)
    (hsendBatch : P (k.sysIpcSendBatch env a0 a1 a2).kernel)
    (hrecvBatch : P (k.sysIpcRecvBatch env a0 a1 a2).kernel)
    (hsendAsync : P (k.sysIpcSendAsync env a0 a1 a2 a3).kernel)
    (htryRecv : P (k.sysIpcTryRecv env a0 a1 a2).kernel)
    (hportStats : P (k.sysIpcPortStats a0 a1).kernel)
    (hframebuffer : P (k.sysGetFramebuffer env a0).kernel) (hlog : P (k.sysDebugLog a0 a1).kernel)
    (hwaitAny : ∀ o, k.sysIpcWaitAny env a0 a1 a2 = some o → P o.kernel) (hk : P k) :
    P o.kernel := by
  unfold Kernel.dispatch at h
  -- one branch per system call number, in the dispatcher's order
  refine holds_of_ite_some h hyield fun h => ?_
  refine holds_of_ite_some h hexit fun h => ?_
  refine holds_of_ite_some h hsleep fun h => ?_
  refine holds_of_ite_some h hcreate fun h => ?_
  refine holds_of_ite_some h hcreatePort fun h => ?_
  refine holds_of_ite_some h hclosePort fun h => ?_
  refine holds_of_ite_some h hsend fun h => ?_
  refine holds_of_ite h (hrecv o) fun h => ?_
  refine holds_of_ite_some h hcapCreate fun h => ?_
  refine holds_of_ite_some h hrevoke fun h => ?_
  refine holds_of_ite_some h hderive fun h => ?_
  refine holds_of_ite_some h htransfer fun h => ?_
  refine holds_of_ite_some h hsendWithCap fun h => ?_
  refine holds_of_ite_some h hqueryChildren fun h => ?_
  refine holds_of_ite_some h hsendBatch fun h => ?_
  refine holds_of_ite_some h hrecvBatch fun h => ?_
  refine holds_of_ite_some h hsendAsync fun h => ?_
  refine holds_of_ite_some h htryRecv fun h => ?_
  refine holds_of_ite_some h hportStats fun h => ?_
  refine holds_of_ite_some h hframebuffer fun h => ?_
  refine holds_of_ite_some h hlog fun h => ?_
  refine holds_of_ite h (hwaitAny o) fun h => ?_
  -- `ENOSYS` leaves the kernel as it was; a number without a modelled handler gives nothing
  refine holds_of_ite_some h hk fun h => ?_
  exact nomatch h

/-! ### Boot and the threads the kernel starts -/

/-- The kernel before boot: no capability, no thread, no port; the counters at one. -/
def empty : Kernel := ⟨CapSys.empty, Scheduler.new, IpcManager.new, 1⟩

/-- `kernel.rs`: the idle thread from `Thread::new` at priority `Idle` on four pages of stack,
then `sched::init`. -/
def boot (idleEntry idleStackTop cr3 : UInt64) : Kernel :=
  let idle := Thread.new empty.nextThreadId idleEntry idleStackTop (4 * 4096) cr3 .idle
  let k : Kernel := { empty with nextThreadId := empty.nextThreadId + 1 }
  k.setSchedSys (k.schedSys.init idle).2

/-- `create_init_process`: a thread on the ring-3 context `CpuContext::new_user` builds, added to
the list by `thread::add_thread` and made ready by `sched::mark_thread_ready`. -/
def spawnInit (k : Kernel) (entryPoint userStack kernelStack cr3 : UInt64) (kernelStackSize : Nat) :
    Kernel :=
  let pid := k.nextThreadId
  let thread : Thread :=
    ⟨pid, .ready, CpuContext.newUser entryPoint userStack cr3, kernelStack, kernelStackSize, cr3,
      .normal, CapabilityTable.new pid⟩
  let k₁ : Kernel :=
    { k with nextThreadId := pid + 1, caps := { k.caps with threads := k.caps.threads.add thread } }
  k₁.setSchedSys (k₁.schedSys.markReady pid)

/-- `spawn_service_thread`: a kernel thread from `Thread::new`, added to the list and made
ready. -/
def spawnService (k : Kernel) (entryPoint stackTop : UInt64) (stackSize : Nat)
    (priority : ThreadPriority) : Kernel :=
  let thread := Thread.new k.nextThreadId entryPoint stackTop stackSize 0 priority
  let k₁ : Kernel :=
    { k with nextThreadId := k.nextThreadId + 1, caps := { k.caps with threads := k.caps.threads.add thread } }
  k₁.setSchedSys (k₁.schedSys.markReady thread.id)

end Kernel

/-! ### The kernel's runs -/

/-- What moves the kernel. -/
inductive KernelCall where
  | spawnInit (entryPoint userStack kernelStack cr3 : UInt64) (kernelStackSize : Nat)
  | spawnService (entryPoint stackTop : UInt64) (stackSize : Nat) (priority : ThreadPriority)
  | timerTick
  | timerInterrupt (currentTicks : UInt64)
  | syscall (env : Env) (num a0 a1 a2 a3 a4 : UInt64)

/-- One move of the kernel; a system call is made by the current thread, in the environment the
call meets.  The idle thread makes none: `idle_thread_entry` of `kernel.rs` only halts. -/
inductive KernelStep : Kernel → KernelCall → Kernel → Prop where
  | spawnInit (k : Kernel) (entryPoint userStack kernelStack cr3 : UInt64) (kernelStackSize : Nat) :
      KernelStep k (.spawnInit entryPoint userStack kernelStack cr3 kernelStackSize)
        (k.spawnInit entryPoint userStack kernelStack cr3 kernelStackSize)
  | spawnService (k : Kernel) (entryPoint stackTop : UInt64) (stackSize : Nat)
      (priority : ThreadPriority) :
      KernelStep k (.spawnService entryPoint stackTop stackSize priority)
        (k.spawnService entryPoint stackTop stackSize priority)
  | timerTick (k : Kernel) : KernelStep k .timerTick k.tick
  | timerInterrupt (k : Kernel) (currentTicks : UInt64) :
      KernelStep k (.timerInterrupt currentTicks) (k.ipcOnTimerTick currentTicks)
  | syscall (k : Kernel) (env : Env) (num a0 a1 a2 a3 a4 : UInt64)
      (hcaller : k.currentThread ≠ k.sched.idle) (o : Outcome)
      (h : k.dispatch env num a0 a1 a2 a3 a4 = some o) :
      KernelStep k (.syscall env num a0 a1 a2 a3 a4) o.kernel

namespace Kernel

/-- The kernels reachable from some boot. -/
def IsReachable (k : Kernel) : Prop :=
  ∃ idleEntry idleStackTop cr3, Reachable KernelStep (boot idleEntry idleStackTop cr3) k

theorem IsReachable.next {k k' : Kernel} (hk : k.IsReachable) {a : KernelCall}
    (hst : KernelStep k a k') : k'.IsReachable :=
  let ⟨e, s, c, h⟩ := hk
  ⟨e, s, c, h.next a hst⟩

/-- `n` timer ticks in a row. -/
def ticks (n : Nat) (k : Kernel) : Kernel := Kernel.tick^[n] k

theorem IsReachable.ticks {k : Kernel} (hk : k.IsReachable) (n : Nat) : (k.ticks n).IsReachable := by
  induction n with
  | zero => exact hk
  | succ n ih =>
      rw [Kernel.ticks, Function.iterate_succ_apply']
      exact ih.next (KernelStep.timerTick _)

/-! ### Three runs from boot -/

/-- The environment of the runs below: zeroed memory, no shared region, the page allocator
answers `0x500000`, no framebuffer, no tick yet. -/
def runEnv : Env := ⟨fun _ => 0, fun _ => none, some 0x500000, none, 0⟩

/-- Booted, with the init process (thread 2, on a ring-3 context) and a service thread
(thread 3) started; one tick later the init process runs. -/
def initRunning : Kernel :=
  (((boot 0x100000 0x204000 0x1000).spawnInit 0x400000 0x7FFFF000 0x308000 0x1000 (8 * 4096)).spawnService
    0x110000 0x408000 (4 * 4096) .normal).tick

theorem initRunning_reachable : initRunning.IsReachable :=
  ⟨0x100000, 0x204000, 0x1000,
    ((Reachable.init.next _ (KernelStep.spawnInit _ _ _ _ _ _)).next _
      (KernelStep.spawnService _ _ _ _ _)).next _ (KernelStep.timerTick _)⟩

/-- The init process mints a capability over thread 2 with `WRITE` (`SYS_CAP_CREATE`). -/
def initHoldsThreadCap : Kernel := (initRunning.sysCapCreate 0 2 2).kernel

theorem initHoldsThreadCap_reachable : initHoldsThreadCap.IsReachable :=
  initRunning_reachable.next
    (KernelStep.syscall _ runEnv SYS_CAP_CREATE 0 2 2 0 0 (by decide) _
      (dispatch_sysCapCreate _ _ _ _ _ _ _))

/-- The init process runs on a ring-3 context and holds no capability; `SYS_CAP_CREATE` gives it
a `Thread` capability with `WRITE`, and `SYS_THREAD_CREATE` then adds thread 4, which runs from
the entry point the init process chose on the ring-0 code selector. -/
theorem sysThreadCreate_initHoldsThreadCap :
    initRunning.IsReachable ∧
    initRunning.currentThread = some 2 ∧
    (initRunning.caps.threads.lookup 2).map (fun t => t.context.rpl) = some 3 ∧
    (initRunning.caps.threads.lookup 2).map (fun t => t.capabilityTable.capabilities.keys) = some ∅ ∧
    (initRunning.sysCapCreate 0 2 2).ret = 1 ∧
    initHoldsThreadCap.IsReachable ∧
    initHoldsThreadCap.dispatch runEnv SYS_THREAD_CREATE 0x401000 0x7FFFE000 0 0 0 =
      some (initHoldsThreadCap.sysThreadCreate runEnv 0x401000 0x7FFFE000 0) ∧
    (initHoldsThreadCap.sysThreadCreate runEnv 0x401000 0x7FFFE000 0).ret = 4 ∧
    ((initHoldsThreadCap.sysThreadCreate runEnv 0x401000 0x7FFFE000 0).kernel.caps.threads.lookup 4).map
      (fun t => (t.context.rip, t.context.rpl)) = some (0x401000, 0) := by
  refine ⟨initRunning_reachable, ?_, ?_, ?_, ?_, initHoldsThreadCap_reachable,
    dispatch_sysThreadCreate _ _ _ _ _ _ _, ?_, ?_⟩ <;> with_unfolding_all decide

/-- The init process creates thread 4 with the `Thread` capability it minted
(`SYS_THREAD_CREATE`) and opens port 1; three ticks later thread 4 runs. -/
def childRunning : Kernel :=
  (initHoldsThreadCap.sysThreadCreate runEnv 0x401000 0x7FFFE000 0).kernel.sysIpcCreatePort.kernel.ticks 3

theorem childRunning_reachable : childRunning.IsReachable :=
  (((initHoldsThreadCap_reachable.next
    (KernelStep.syscall _ runEnv SYS_THREAD_CREATE 0x401000 0x7FFFE000 0 0 0
      (by with_unfolding_all decide) _ (dispatch_sysThreadCreate _ _ _ _ _ _ _))).next
    (KernelStep.syscall _ runEnv SYS_IPC_CREATE_PORT 0 0 0 0 0 (by with_unfolding_all decide) _
      (dispatch_sysIpcCreatePort _ _ _ _ _ _ _)))).ticks 3

/-- Thread 4, which the init process created and which holds no capability, sends on port 1 of
the init process: the message is queued. -/
theorem sysIpcSend_childRunning :
    childRunning.IsReachable ∧
    childRunning.currentThread = some 4 ∧
    (childRunning.caps.threads.lookup 4).map (fun t => t.capabilityTable.capabilities.keys) = some ∅ ∧
    childRunning.ipc.portOwner 1 = some 2 ∧
    childRunning.dispatch runEnv SYS_IPC_SEND 1 7 0 0 0 = some (childRunning.sysIpcSend runEnv 1 7 0 0) ∧
    (childRunning.sysIpcSend runEnv 1 7 0 0).ret = ESUCCESS ∧
    ((childRunning.sysIpcSend runEnv 1 7 0 0).kernel.ipc.queue 1).map Message.sender = [4] := by
  refine ⟨childRunning_reachable, ?_, ?_, ?_, dispatch_sysIpcSend _ _ _ _ _ _ _, ?_, ?_⟩ <;>
    with_unfolding_all decide

/-- The init process creates thread 4 at `0x0001000000000000`, whose bits 48–63 are `0x0001`;
then the init process yields and the timer ticks. -/
def nonCanonicalQueued : Kernel :=
  (initHoldsThreadCap.sysThreadCreate runEnv 0x0001000000000000 0x7FFFE000 0).kernel.sysThreadYield.kernel
    |>.tick

theorem nonCanonicalQueued_reachable : nonCanonicalQueued.IsReachable :=
  ((initHoldsThreadCap_reachable.next (KernelStep.syscall _ runEnv SYS_THREAD_CREATE 0x0001000000000000
      0x7FFFE000 0 0 0 (by decide) _ (dispatch_sysThreadCreate _ _ _ _ _ _ _))).next
    (KernelStep.syscall _ runEnv SYS_THREAD_YIELD 0 0 0 0 0 (by with_unfolding_all decide) _ rfl)).next
    (KernelStep.timerTick _)

/-- `SYS_THREAD_CREATE` takes any non-zero entry point: thread 4's context fails
`validate_context_for_iret`, and the next yield of the init process switches to it, the guard
logging the reason and the CPU resuming the context. -/
theorem sysThreadCreate_nonCanonical :
    nonCanonicalQueued.IsReachable ∧
    (initHoldsThreadCap.sysThreadCreate runEnv 0x0001000000000000 0x7FFFE000 0).ret = 4 ∧
    (nonCanonicalQueued.caps.threads.lookup 4).map (fun t => validateContextForIret t.context) =
      some (.error "non-canonical RIP or RSP") ∧
    nonCanonicalQueued.currentThread = some 2 ∧
    nonCanonicalQueued.yieldSwitch.map (fun s => (s.logged, s.resumed.rip)) =
      some (some "non-canonical RIP or RSP", 0x0001000000000000) ∧
    nonCanonicalQueued.sysThreadYield.kernel.currentThread = some 4 := by
  refine ⟨nonCanonicalQueued_reachable, ?_, ?_, ?_, ?_, ?_⟩ <;> with_unfolding_all decide

/-- The init process calls `SYS_DEBUG_LOG` on sixteen bytes at `KERNEL_BASE`: the call succeeds
and reads them. -/
theorem sysDebugLog_initRunning :
    initRunning.IsReachable ∧
    initRunning.currentThread = some 2 ∧
    (initRunning.dispatch runEnv SYS_DEBUG_LOG KERNEL_BASE 16 0 0 0).map (fun o => (o.ret, o.accesses)) =
      some (ESUCCESS, [⟨KERNEL_BASE, 16, false⟩]) ∧
    ¬ UserAccess.Confined ⟨KERNEL_BASE, 16, false⟩ := by
  refine ⟨initRunning_reachable, ?_, ?_, ?_⟩
  · decide
  · rw [dispatch_sysDebugLog]
    rfl
  · decide

end Kernel

end Atom
