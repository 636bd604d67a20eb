import Atom.Kernel.Syscall.Cap
import Atom.Kernel.Sched.System
import Atom.Kernel.Ipc.Port

/-!
# System calls — the kernel state and the thread calls

The state the system calls of `kernel/src/syscall/mod.rs` read and write (`Kernel`): the
capability system (whose thread list is `THREAD_LIST`), the scheduler, the IPC manager, and the
counter `ThreadId::new` draws from.  A call runs for the scheduler's current thread and ends in
an `Outcome`: the value left in `rax`, the kernel after it, and the user memory it read or wrote
through its pointer arguments.  What the subsystems that are not modelled answer during the call
(the bytes a read through a pointer finds, `shared_mem`, `pmm::alloc_pages`, `graphics`, the tick
counter of the timer interrupt) is the call's environment `Env`.

This module lifts the capability calls to the kernel and models the thread calls
`sys_thread_yield`, `sys_thread_exit`, `sys_thread_sleep` and `sys_thread_create`.
-/

namespace Atom

open Lib Syscall

/-- A range of user memory the kernel reads or writes through a pointer argument. -/
structure UserAccess where
  addr : UInt64
  len : Nat
  write : Bool
  deriving DecidableEq, Repr

/-- What `graphics` reports: `get_framebuffer_address`, `get_dimensions`, `get_stride` and
`get_bytes_per_pixel`. -/
structure Framebuffer where
  address : UInt64
  width : UInt64
  height : UInt64
  stride : UInt64
  bytesPerPixel : UInt64
  deriving DecidableEq, Repr

/-- The answers of the subsystems a call reaches that are not modelled. -/
structure Env where
  /-- The byte a read through a pointer argument finds at an address. -/
  mem : UInt64 → UInt8
  /-- `shared_mem::get_region_info(region).size`. -/
  regionInfo : RegionId → Option Nat
  /-- What `pmm::alloc_pages` returns. -/
  allocPages : Option UInt64
  /-- The framebuffer, once `graphics` has one. -/
  framebuffer : Option Framebuffer
  /-- `interrupts::get_ticks`. -/
  ticks : UInt64

/-- The kernel state. -/
structure Kernel where
  caps : CapSys
  sched : Scheduler
  ipc : IpcManager
  /-- The counter of `ThreadId::new`. -/
  nextThreadId : ThreadId

/-- What a system call returns and leaves. -/
structure Outcome where
  ret : UInt64
  kernel : Kernel
  accesses : List UserAccess

namespace Kernel

/-- `sched::current_thread`. -/
def currentThread (k : Kernel) : Option ThreadId := k.sched.currentThread

/-- The scheduler with the thread list. -/
def schedSys (k : Kernel) : SchedSys := ⟨k.sched, k.caps.threads⟩

/-- The kernel after a scheduler call. -/
def setSchedSys (k : Kernel) (s : SchedSys) : Kernel :=
  { k with sched := s.sched, caps := { k.caps with threads := s.threads } }

/-- The kernel after a capability call. -/
def setCaps (k : Kernel) (caps : CapSys) : Kernel := { k with caps }

/-- `sched::on_timer_tick` and the context switch that follows it, which only moves registers. -/
def tick (k : Kernel) : Kernel := k.setSchedSys k.schedSys.onTimerTick.2

/-! ### The capability calls -/

/-- `sys_cap_create`. -/
def sysCapCreate (k : Kernel) (resourceType resourceId permissions : UInt64) : Outcome :=
  let (ret, caps) := Syscall.sysCapCreate k.caps k.currentThread resourceType resourceId permissions
  ⟨ret, k.setCaps caps, []⟩

/-- `sys_cap_revoke`. -/
def sysCapRevoke (k : Kernel) (handleRaw : UInt64) : Outcome :=
  let (ret, caps) := Syscall.sysCapRevoke k.caps k.currentThread handleRaw
  ⟨ret, k.setCaps caps, []⟩

/-- `sys_cap_derive`. -/
def sysCapDerive (k : Kernel) (parentHandleRaw newOwnerRaw reducedPerms : UInt64) : Outcome :=
  let (ret, caps) := Syscall.sysCapDerive k.caps k.currentThread parentHandleRaw newOwnerRaw reducedPerms
  ⟨ret, k.setCaps caps, []⟩

/-- `sys_cap_transfer`. -/
def sysCapTransfer (k : Kernel) (capHandleRaw targetTidRaw : UInt64) : Outcome :=
  let (ret, caps) := Syscall.sysCapTransfer k.caps k.currentThread capHandleRaw targetTidRaw
  ⟨ret, k.setCaps caps, []⟩

/-! ### The thread calls -/

/-- `sys_thread_yield`. -/
def sysThreadYield (k : Kernel) : Outcome := ⟨ESUCCESS, k.tick, []⟩

/-- `perform_context_switch`: the switch from the context of thread `fromId` to that of thread
`toId`, when both are in the thread list (`with_thread_contexts`). -/
def performContextSwitch (k : Kernel) (fromId toId : ThreadId) : Option Switch :=
  match k.caps.threads.lookup fromId, k.caps.threads.lookup toId with
  | some f, some t => some (switchThreadContext f.context t.context)
  | _, _ => none

/-- The switch `sys_thread_yield` makes after its tick: from the thread the tick preempts to the
one it picks, when they differ. -/
def yieldSwitch (k : Kernel) : Option Switch :=
  match k.schedSys.onTimerTick.1 with
  | (some prev, some next) => if prev ≠ next then k.tick.performContextSwitch prev next else none
  | _ => none

/-- `sys_thread_exit`: the caller is set `Exited`, then the scheduler ticks. -/
def sysThreadExit (k : Kernel) (_exitCode : UInt64) : Outcome :=
  match k.currentThread with
  | some tid => ⟨ESUCCESS, (k.setSchedSys (k.schedSys.setThreadState tid .exited)).tick, []⟩
  | none => ⟨ESUCCESS, k, []⟩

/-- `sys_thread_sleep`: no ticks is a yield; otherwise the caller is set `Blocked`, then the
scheduler ticks. -/
def sysThreadSleep (k : Kernel) (ticks : UInt64) : Outcome :=
  if ticks = 0 then k.sysThreadYield
  else
    match k.currentThread with
    | some tid => ⟨ESUCCESS, (k.setSchedSys (k.schedSys.setThreadState tid .blocked)).tick, []⟩
    | none => ⟨ESUCCESS, k, []⟩

/-- `KERNEL_STACK_SIZE` of `sys_thread_create`. -/
def KERNEL_STACK_SIZE : Nat := 16 * 1024

/-- The filter `sys_thread_create` passes to `validate_thread_capability_by_type`. -/
def isThreadResource : ResourceType → Bool
  | .thread _ => true
  | _ => false

/-- `sys_thread_create`: a caller holding a `Thread` capability with `WRITE` gets a thread built
by `Thread::new` at its entry point, on a fresh kernel stack, added to the scheduler.  The user
stack pointer and the flags are checked for zero and not used further. -/
def sysThreadCreate (k : Kernel) (env : Env) (entryPoint stackPtr _flags : UInt64) : Outcome :=
  if entryPoint = 0 ∨ stackPtr = 0 then ⟨EINVAL, k, []⟩
  else
    match k.currentThread with
    | none => ⟨EINVAL, k, []⟩
    | some caller =>
        if !k.caps.threads.validateCapabilityByType caller CapPermissions.WRITE isThreadResource then
          ⟨EPERM, k, []⟩
        else
          match env.allocPages with
          | none => ⟨ENOMEM, k, []⟩
          | some addr =>
              let thread := Thread.new k.nextThreadId entryPoint (addr + KERNEL_STACK_SIZE.toUInt64)
                KERNEL_STACK_SIZE 0 .normal
              let (tid, s) := k.schedSys.addThread thread
              ⟨UInt64.ofNat tid, { k.setSchedSys s with nextThreadId := k.nextThreadId + 1 }, []⟩

/-! ### What the thread calls build -/

end Kernel

end Atom
