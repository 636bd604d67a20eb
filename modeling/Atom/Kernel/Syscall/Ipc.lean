import Atom.Kernel.Syscall.Kernel

/-!
# System calls — the IPC calls

The IPC handlers of `kernel/src/syscall/mod.rs` over the kernel: `sys_ipc_create_port`,
`sys_ipc_close_port`, `sys_ipc_send`, `sys_ipc_send_async`, `sys_ipc_try_recv`,
`sys_ipc_send_with_cap`, the batch calls, `sys_ipc_recv` and `sys_ipc_wait_any`.  The payload a
call copies from or to user memory appears in the outcome's accesses; the bytes
`sys_ipc_send_async` reads and the port ids `sys_ipc_wait_any` reads are those the environment's
memory holds.  A receive that blocks and is switched away from gives no outcome: the call goes on
only when its caller runs again, which the model does not follow.
-/

namespace Atom

open Lib Syscall

namespace Kernel

/-- The code `sys_ipc_send`, `sys_ipc_send_async` and `sys_ipc_send_with_cap` return for an
`IpcError`; `full` is the code for a full queue. -/
def sendErrorCode (full : UInt64) : IpcError → UInt64
  | .invalidPort => EINVAL
  | .messageTooLarge => EMSGSIZE
  | .queueFull => full
  | .wouldBlock => full
  | _ => EINVAL

/-- `sys_ipc_create_port`: the port, then a root `IpcPort` capability with `READ | WRITE` for the
owner; a failure of the capability calls is only logged. -/
def sysIpcCreatePort (k : Kernel) : Outcome :=
  match k.currentThread with
  | none => ⟨EINVAL, k, []⟩
  | some owner =>
      let (portId, ipc) := k.ipc.createPort owner
      let caps := (k.caps.createOwnedRoot (.ipcPort portId) owner
        (CapPermissions.READ.union CapPermissions.WRITE)).2
      ⟨UInt64.ofNat portId, { k with ipc, caps }, []⟩

/-- `sys_ipc_close_port`. -/
def sysIpcClosePort (k : Kernel) (portIdRaw : UInt64) : Outcome :=
  match k.currentThread with
  | none => ⟨EINVAL, k, []⟩
  | some caller =>
      match k.ipc.closePort portIdRaw.toNat caller with
      | (.ok (), ipc) => ⟨ESUCCESS, { k with ipc }, []⟩
      | (.error .permissionDenied, ipc) => ⟨EPERM, { k with ipc }, []⟩
      | (.error _, ipc) => ⟨EINVAL, { k with ipc }, []⟩

/-- `sys_ipc_send`: the message carries the message type and an empty payload. -/
def sysIpcSend (k : Kernel) (env : Env) (portIdRaw msgType payloadLen timeoutMs : UInt64) : Outcome :=
  if payloadLen > MAX_MESSAGE_SIZE.toUInt64 then ⟨EMSGSIZE, k, []⟩
  else
    match k.currentThread with
    | none => ⟨EINVAL, k, []⟩
    | some sender =>
        match k.ipc.send env.regionInfo portIdRaw.toNat (Message.new sender msgType.toUInt32 []) with
        | (.ok (), ipc) => ⟨ESUCCESS, { k with ipc }, []⟩
        | (.error e, ipc) =>
            ⟨sendErrorCode (if timeoutMs = 0 then EWOULDBLOCK else ETIMEDOUT) e, { k with ipc }, []⟩

/-- The `len` bytes from `ptr` on, as a read through the pointer finds them. -/
def readBytes (mem : UInt64 → UInt8) (ptr : UInt64) (len : Nat) : List UInt8 :=
  (List.range len).map fun i => mem (ptr + UInt64.ofNat i)

/-- `sys_ipc_send_async`: the payload is copied from `payload_ptr` when both the pointer and the
length are non-zero. -/
def sysIpcSendAsync (k : Kernel) (env : Env) (portIdRaw msgType payloadPtr payloadLen : UInt64) :
    Outcome :=
  if payloadLen > MAX_MESSAGE_SIZE.toUInt64 then ⟨EMSGSIZE, k, []⟩
  else
    match k.currentThread with
    | none => ⟨EINVAL, k, []⟩
    | some sender =>
        let copied := decide (payloadLen > 0 ∧ payloadPtr ≠ 0)
        let payload := if copied then readBytes env.mem payloadPtr payloadLen.toNat else []
        let accesses := if copied then [⟨payloadPtr, payloadLen.toNat, false⟩] else []
        match k.ipc.send env.regionInfo portIdRaw.toNat (Message.new sender msgType.toUInt32 payload) with
        | (.ok (), ipc) => ⟨ESUCCESS, { k with ipc }, accesses⟩
        | (.error e, ipc) => ⟨sendErrorCode EWOULDBLOCK e, { k with ipc }, accesses⟩

/-- `sys_ipc_try_recv`: up to `buffer_size` bytes of the payload are copied to `buffer_ptr` when
the pointer is not null. -/
def sysIpcTryRecv (k : Kernel) (env : Env) (portIdRaw bufferPtr bufferSize : UInt64) : Outcome :=
  match k.currentThread with
  | none => ⟨EINVAL, k, []⟩
  | some caller =>
      match k.ipc.tryRecv env.regionInfo portIdRaw.toNat caller with
      | (.ok (some msg), ipc) =>
          let bytesToCopy := min msg.payload.length bufferSize.toNat
          let accesses := if bufferPtr ≠ 0 ∧ bytesToCopy > 0 then [⟨bufferPtr, bytesToCopy, true⟩] else []
          ⟨UInt64.ofNat bytesToCopy, { k with ipc }, accesses⟩
      | (.ok none, ipc) => ⟨EWOULDBLOCK, { k with ipc }, []⟩
      | (.error _, ipc) => ⟨EINVAL, { k with ipc }, []⟩

/-- The filter `sys_ipc_send_with_cap` passes for the port. -/
def isIpcPort (portId : PortId) : ResourceType → Bool
  | .ipcPort id => id == portId
  | _ => false

/-- `sys_ipc_send_with_cap`: `WRITE` on the port, the handle in the caller's table, and `GRANT`
on some capability of the caller; then a message that moves the handle (`mode >> 32 ≠ 0`) or
grants it with the rights in the low 32 bits. -/
def sysIpcSendWithCap (k : Kernel) (env : Env) (portIdRaw msgType payloadLen capHandleRaw modeOrPerms : UInt64) :
    Outcome :=
  if payloadLen > MAX_MESSAGE_SIZE.toUInt64 then ⟨EMSGSIZE, k, []⟩
  else
    match k.currentThread with
    | none => ⟨EINVAL, k, []⟩
    | some sender =>
        let portId := portIdRaw.toNat
        let capHandle := capHandleRaw.toNat
        if !k.caps.threads.validateCapabilityByType sender CapPermissions.WRITE (isIpcPort portId) then
          ⟨EPERM, k, []⟩
        else if !k.caps.threads.hasCapability sender capHandle then ⟨EPERM, k, []⟩
        else if !k.caps.threads.validateCapabilityByType sender CapPermissions.GRANT fun _ => true then
          ⟨EPERM, k, []⟩
        else
          let message :=
            if modeOrPerms >>> 32 ≠ 0 then Message.newWithMove sender msgType.toUInt32 [] capHandle
            else Message.newWithGrant sender msgType.toUInt32 [] capHandle
              (CapPermissions.fromBits modeOrPerms.toUInt32)
          match k.ipc.send env.regionInfo portId message with
          | (.ok (), ipc) => ⟨ESUCCESS, { k with ipc }, []⟩
          | (.error e, ipc) => ⟨sendErrorCode EINVAL e, { k with ipc }, []⟩

/-! ### The receiving and batch calls -/

/-- What `IpcManager::send_batch` does for the receiver it unblocks: `sched::mark_thread_ready`,
then `restore_priority`. -/
def wake (k : Kernel) (receiverId : ThreadId) : Kernel :=
  let s := k.schedSys.markReady receiverId
  k.setSchedSys { s with sched := s.sched.restoreOriginalPriority receiverId }

/-- `ipc::on_timer_tick`, which `timer_interrupt_handler` calls: `IpcManager::handle_timeouts`
releases the waiters whose deadline has passed, then wakes each in turn (`mark_thread_ready`, then
`restore_priority`). -/
def ipcOnTimerTick (k : Kernel) (currentTicks : UInt64) : Kernel :=
  let r := k.ipc.handleTimeouts currentTicks
  r.1.foldl (fun k e => k.wake e.1) { k with ipc := r.2 }

/-- What every wake-up keeps holds after the wake-ups of `on_timer_tick`, by induction on the
expired waiters. -/
theorem foldl_wake {P : Kernel → Prop} (hwake : ∀ k t, P k → P (k.wake t)) :
    ∀ (expired : List (ThreadId × PortId)) (k : Kernel), P k →
      P (expired.foldl (fun k e => k.wake e.1) k)
  | [], _, hk => hk
  | e :: rest, k, hk => foldl_wake hwake rest (k.wake e.1) (hwake k e.1 hk)

/-- The batch `sys_ipc_send_batch` sends: `count` messages made in the kernel, message `i` of type
`i` with the one byte `i`.  The messages at `messages_ptr` are never read. -/
def batchMessages (sender : ThreadId) (count : Nat) : List Message :=
  (List.range count).map fun i => Message.new sender (UInt32.ofNat i) [UInt8.ofNat i]

/-- `sys_ipc_send_batch`: the number of messages sent, and the receiver they unblock woken. -/
def sysIpcSendBatch (k : Kernel) (env : Env) (portIdRaw _messagesPtr count : UInt64) : Outcome :=
  if count = 0 then ⟨ESUCCESS, k, []⟩
  else if count > MAX_BATCH_SIZE.toUInt64 then ⟨EINVAL, k, []⟩
  else
    match k.currentThread with
    | none => ⟨EINVAL, k, []⟩
    | some sender =>
        match k.ipc.sendBatch env.regionInfo portIdRaw.toNat (batchMessages sender count.toNat) with
        | (.ok sentCount, ipc, some receiverId) =>
            ⟨UInt64.ofNat sentCount, { k with ipc }.wake receiverId, []⟩
        | (.ok sentCount, ipc, none) => ⟨UInt64.ofNat sentCount, { k with ipc }, []⟩
        | (.error .queueFull, ipc, _) => ⟨EWOULDBLOCK, { k with ipc }, []⟩
        | (.error _, ipc, _) => ⟨EINVAL, { k with ipc }, []⟩

/-- `sys_ipc_recv_batch`: the number of messages `receive_batch` took off the queue.  None of
them is copied to `buffer_ptr`. -/
def sysIpcRecvBatch (k : Kernel) (env : Env) (portIdRaw _bufferPtr maxCount : UInt64) : Outcome :=
  if maxCount = 0 then ⟨0, k, []⟩
  else if maxCount > MAX_BATCH_SIZE.toUInt64 then ⟨EINVAL, k, []⟩
  else
    match k.currentThread with
    | none => ⟨EINVAL, k, []⟩
    | some caller =>
        match k.ipc.recvBatch env.regionInfo portIdRaw.toNat caller maxCount.toNat with
        | (.ok messages, ipc) => ⟨UInt64.ofNat messages.length, { k with ipc }, []⟩
        | (.error _, ipc) => ⟨EINVAL, { k with ipc }, []⟩

/-- The closure `copy_message` of `sys_ipc_recv`: up to `buffer_size` bytes of the payload are
copied to `buffer_ptr` when the pointer is not null, and their number is returned. -/
def copyMessage (bufferPtr bufferSize : UInt64) (msg : Message) (k : Kernel) : Outcome :=
  let bytesToCopy := min msg.payload.length bufferSize.toNat
  ⟨UInt64.ofNat bytesToCopy, k,
    if bufferPtr ≠ 0 ∧ bytesToCopy > 0 then [⟨bufferPtr, bytesToCopy, true⟩] else []⟩

/-- The end of `sys_ipc_recv` once the caller runs again after blocking: the queue is tried a
second time, and an empty queue is a timeout. -/
def recvAfterBlock (k : Kernel) (env : Env) (portId : PortId) (caller : ThreadId)
    (bufferPtr bufferSize : UInt64) : Outcome :=
  match k.ipc.tryRecv env.regionInfo portId caller with
  | (.ok (some msg), ipc) => copyMessage bufferPtr bufferSize msg { k with ipc }
  | (.ok none, ipc) => ⟨ETIMEDOUT, { k with ipc }, []⟩
  | (.error _, ipc) => ⟨EINVAL, { k with ipc }, []⟩

/-- Whether the pair `on_timer_tick` returns makes the caller switch to another thread. -/
def switches : Option ThreadId × Option ThreadId → Bool
  | (some prev, some next) => prev != next
  | _ => false

/-- The deadline `sys_ipc_recv` gives the wait: `(timeout_ms + 9) / 10` ticks on, none for a
timeout of `u64::MAX`. -/
def recvDeadline (ticks timeoutMs : UInt64) : Option UInt64 :=
  if timeoutMs = 0xFFFFFFFFFFFFFFFF then none else some (ticks + (timeoutMs + 9) / 10)

/-- `sys_ipc_recv`.  A message on the queue is taken and copied at once.  Otherwise, with a
non-zero timeout, the caller becomes the port's waiter (`block_receive`, with its effective
priority), is set `Blocked`, and the scheduler ticks.  When the tick switches to another thread the call goes on only once the caller runs
again, which is not modelled (`none`); when the caller is chosen again the call goes on at
once. -/
def sysIpcRecv (k : Kernel) (env : Env) (portIdRaw bufferPtr bufferSize timeoutMs : UInt64) :
    Option Outcome :=
  match k.currentThread with
  | none => some ⟨EINVAL, k, []⟩
  | some caller =>
      let portId := portIdRaw.toNat
      let priority := k.sched.getPriority caller
      let deadline := recvDeadline env.ticks timeoutMs
      match k.ipc.tryRecv env.regionInfo portId caller with
      | (.ok (some msg), ipc) => some (copyMessage bufferPtr bufferSize msg { k with ipc })
      | (.ok none, ipc) =>
          if timeoutMs = 0 then some ⟨EWOULDBLOCK, { k with ipc }, []⟩
          else
            match ipc.blockRecv portId caller priority deadline with
            | (.ok (), ipc) =>
                let k₁ : Kernel := { k with ipc }
                let k₂ := k₁.setSchedSys (k₁.schedSys.setThreadState caller .blocked)
                if switches k₂.schedSys.onTimerTick.1 then none
                else some (k₂.tick.recvAfterBlock env portId caller bufferPtr bufferSize)
            | (.error .portBusy, ipc) => some ⟨EBUSY, { k with ipc }, []⟩
            | (.error .deadlockDetected, ipc) => some ⟨EDEADLK, { k with ipc }, []⟩
            | (.error _, ipc) => some ⟨EINVAL, { k with ipc }, []⟩
      | (.error _, ipc) => some ⟨EINVAL, { k with ipc }, []⟩

/-- The `u64` a read through a pointer finds at `addr`, little-endian. -/
def readU64 (mem : UInt64 → UInt8) (addr : UInt64) : Nat :=
  (readBytes mem addr 8).foldr (fun b acc => b.toNat + 256 * acc) 0

/-- One pass of the polling loop of `sys_ipc_wait_any`: the index of the first port that
`try_receive_message` takes a message from; a port that fails is skipped. -/
def pollPorts (regionInfo : RegionId → Option Nat) (caller : ThreadId) :
    IpcManager → Nat → List PortId → Option Nat × IpcManager
  | m, _, [] => (none, m)
  | m, idx, portId :: rest =>
      match m.tryRecv regionInfo portId caller with
      | (.ok (some _), m') => (some idx, m')
      | (_, m') => pollPorts regionInfo caller m' (idx + 1) rest

/-- `sys_ipc_wait_any`: the `count` port ids are read from `ports_ptr` and the ports tried in
turn; the first that yields a message gives its index, and the message is dropped.  With a zero
timeout a pass that finds nothing returns `EWOULDBLOCK`; otherwise the caller blocks and polls
again, which is not modelled (`none`). -/
def sysIpcWaitAny (k : Kernel) (env : Env) (portsPtr count timeoutMs : UInt64) : Option Outcome :=
  if count = 0 ∨ count > 64 then some ⟨EINVAL, k, []⟩
  else
    match k.currentThread with
    | none => some ⟨EINVAL, k, []⟩
    | some caller =>
        let ports := (List.range count.toNat).map fun i =>
          readU64 env.mem (portsPtr + UInt64.ofNat (8 * i))
        let accesses := [⟨portsPtr, 8 * count.toNat, false⟩]
        match pollPorts env.regionInfo caller k.ipc 0 ports with
        | (some idx, ipc) => some ⟨UInt64.ofNat idx, { k with ipc }, accesses⟩
        | (none, ipc) =>
            if timeoutMs = 0 then some ⟨EWOULDBLOCK, { k with ipc }, accesses⟩ else none

/-! ### What the calls do to the queues -/

end Kernel

end Atom
