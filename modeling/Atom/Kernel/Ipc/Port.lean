import Mathlib.Data.Finmap
import Atom.Kernel.Cap.Types

/-!
# IPC — ports and messages

The IPC manager of `kernel/src/ipc.rs`: the ports by id, each with its owner, its FIFO queue of
messages, the receiver blocked on it and the highest priority among its waiters; the threads
waiting to receive, with their port and deadline; and the counter `PortId::new` draws from.
Shared-memory regions belong to `shared_mem` (`Ipc.System`): the size it reports for a region is
an argument (`regionInfo`) of the operations that validate a message.

* `send_cases`: `send` fails without changing anything, or appends the message to the queue of
  an existing port that held fewer than `MAX_QUEUE_DEPTH` messages.
* `send_queue_le`: no port's queue grows beyond `MAX_QUEUE_DEPTH` through `send`.
* `tryRecv_cases`: `try_recv` takes the front message off the queue, before it validates it.

The per-port metrics keep their four counters; the timestamps and latencies, which read the
clock, and the trace ring are left out.
-/

namespace Atom

/-- `MAX_MESSAGE_SIZE`. -/
def MAX_MESSAGE_SIZE : Nat := 256
/-- `ZERO_COPY_THRESHOLD`. -/
def ZERO_COPY_THRESHOLD : Nat := 128
/-- `MAX_BATCH_SIZE`. -/
def MAX_BATCH_SIZE : Nat := 32
/-- `MAX_QUEUE_DEPTH`. -/
def MAX_QUEUE_DEPTH : Nat := 64

/-- `PortId(u64)`. -/
abbrev PortId := Nat

/-- `RegionId` of `shared_mem`. -/
abbrev RegionId := Nat

/-- `IpcCapability`: a capability a message carries. -/
inductive IpcCapability where
  | grant (capHandle : CapHandle) (permissions : CapPermissions)
  | move (capHandle : CapHandle)
  deriving DecidableEq, Repr

/-- `Message`. -/
structure Message where
  sender : ThreadId
  messageType : UInt32
  payload : List UInt8
  capability : Option IpcCapability
  sharedRegion : Option RegionId
  deriving DecidableEq, Repr

namespace Message

/-- `Message::new`. -/
def new (sender : ThreadId) (messageType : UInt32) (payload : List UInt8) : Message :=
  ⟨sender, messageType, payload, none, none⟩

/-- `Message::new_with_shared_region`. -/
def newWithSharedRegion (sender : ThreadId) (messageType : UInt32) (regionId : RegionId) : Message :=
  ⟨sender, messageType, [], none, some regionId⟩

/-- `Message::new_with_grant`. -/
def newWithGrant (sender : ThreadId) (messageType : UInt32) (payload : List UInt8)
    (capHandle : CapHandle) (permissions : CapPermissions) : Message :=
  ⟨sender, messageType, payload, some (.grant capHandle permissions), none⟩

/-- `Message::new_with_move`. -/
def newWithMove (sender : ThreadId) (messageType : UInt32) (payload : List UInt8)
    (capHandle : CapHandle) : Message :=
  ⟨sender, messageType, payload, some (.move capHandle), none⟩

/-- `Message::size`. -/
def size (m : Message) : Nat := m.payload.length

end Message

/-- `IpcError`. -/
inductive IpcError where
  | invalidPort
  | permissionDenied
  | messageTooLarge
  | portBusy
  | wouldBlock
  | batchTooLarge
  | timeout
  | queueFull
  | deadlockDetected
  | invalidSharedRegion
  | requiresSharedMemory
  | sharedMemoryPayloadConflict
  deriving DecidableEq, Repr

/-- `IpcPortMetrics`, less its latencies and timestamps; the `u64` counters are natural numbers
(no run sends `2⁶⁴` messages). -/
structure IpcPortMetrics where
  messagesSent : Nat
  messagesReceived : Nat
  bytesSent : Nat
  bytesReceived : Nat
  deriving DecidableEq, Repr

namespace IpcPortMetrics

/-- `IpcPortMetrics::default`. -/
def default : IpcPortMetrics := ⟨0, 0, 0, 0⟩

/-- `IpcPortMetrics::record_send`. -/
def recordSend (mt : IpcPortMetrics) (size : Nat) : IpcPortMetrics :=
  { mt with messagesSent := mt.messagesSent + 1, bytesSent := mt.bytesSent + size }

/-- `IpcPortMetrics::record_receive`. -/
def recordReceive (mt : IpcPortMetrics) (size : Nat) : IpcPortMetrics :=
  { mt with messagesReceived := mt.messagesReceived + 1, bytesReceived := mt.bytesReceived + size }

end IpcPortMetrics

/-- `PortState`. -/
structure PortState where
  id : PortId
  owner : ThreadId
  messages : List Message
  receiverBlocked : Option ThreadId
  maxWaiterPriority : Option ThreadPriority
  metrics : IpcPortMetrics

/-- `PortState::new`. -/
def PortState.new (id : PortId) (owner : ThreadId) : PortState :=
  ⟨id, owner, [], none, none, IpcPortMetrics.default⟩

/-- `WaiterInfo`. -/
structure WaiterInfo where
  port : PortId
  deadline : Option UInt64
  deriving DecidableEq, Repr

/-- `IpcManager`, with the counter of `PortId::new`. -/
structure IpcManager where
  ports : Finmap fun _ : PortId => PortState
  waitingThreads : Finmap fun _ : ThreadId => WaiterInfo
  nextPortId : PortId

namespace IpcManager

/-- `IpcManager::new`; `PortId::new` starts at one. -/
def new : IpcManager := ⟨∅, ∅, 1⟩

/-- The port `portId` with its state replaced (`ports.get_mut`). -/
def setPort (m : IpcManager) (portId : PortId) (port : PortState) : IpcManager :=
  { m with ports := m.ports.insert portId port }

/-- `IpcManager::create_port`. -/
def createPort (m : IpcManager) (owner : ThreadId) : PortId × IpcManager :=
  let portId := m.nextPortId
  (portId, { m with
    nextPortId := portId + 1
    ports := m.ports.insert portId (PortState.new portId owner) })

/-- `IpcManager::port_owner`. -/
def portOwner (m : IpcManager) (portId : PortId) : Option ThreadId :=
  (m.ports.lookup portId).map PortState.owner

/-- `IpcManager::close_port`: only the owner closes a port. -/
def closePort (m : IpcManager) (portId : PortId) (caller : ThreadId) : Except IpcError Unit × IpcManager :=
  match m.ports.lookup portId with
  | some port =>
      if port.owner ≠ caller then (.error .permissionDenied, m)
      else (.ok (), { m with ports := m.ports.erase portId })
  | none => (.error .invalidPort, m)

/-- `IpcManager::validate_payload_and_size`: a message in a shared region has no inline payload
and the region's size; an inline payload is at most `ZERO_COPY_THRESHOLD` bytes. -/
def validatePayloadAndSize (regionInfo : RegionId → Option Nat) (message : Message) :
    Except IpcError Nat :=
  match message.sharedRegion with
  | some region =>
      if !message.payload.isEmpty then .error .sharedMemoryPayloadConflict
      else
        match regionInfo region with
        | some size => .ok size
        | none => .error .invalidSharedRegion
  | none =>
      if message.payload.length > MAX_MESSAGE_SIZE then .error .messageTooLarge
      else if message.payload.length > ZERO_COPY_THRESHOLD then .error .requiresSharedMemory
      else .ok message.payload.length

/-- `IpcManager::send`: the port, the message, the queue depth, then the message at the back.
No receiver is woken. -/
def send (m : IpcManager) (regionInfo : RegionId → Option Nat) (portId : PortId) (message : Message) :
    Except IpcError Unit × IpcManager :=
  match m.ports.lookup portId with
  | none => (.error .invalidPort, m)
  | some port =>
      match validatePayloadAndSize regionInfo message with
      | .error e => (.error e, m)
      | .ok size =>
          if port.messages.length ≥ MAX_QUEUE_DEPTH then (.error .queueFull, m)
          else
            (.ok (), m.setPort portId
              { port with messages := port.messages ++ [message], metrics := port.metrics.recordSend size })

/-- `IpcManager::send_batch`: every message is validated before any is queued; the receiver
blocked on the port, if any, is released and returned, for the scheduler to wake. -/
def sendBatch (m : IpcManager) (regionInfo : RegionId → Option Nat) (portId : PortId)
    (messages : List Message) : Except IpcError Nat × IpcManager × Option ThreadId :=
  if messages.isEmpty then (.ok 0, m, none)
  else if messages.length > MAX_BATCH_SIZE then (.error .batchTooLarge, m, none)
  else
    match m.ports.lookup portId with
    | none => (.error .invalidPort, m, none)
    | some port =>
        match messages.mapM (validatePayloadAndSize regionInfo) with
        | .error e => (.error e, m, none)
        | .ok sizes =>
            if port.messages.length + messages.length > MAX_QUEUE_DEPTH then (.error .queueFull, m, none)
            else
              let port' := { port with
                messages := port.messages ++ messages
                metrics := sizes.foldl IpcPortMetrics.recordSend port.metrics }
              match port'.receiverBlocked with
              | some receiverId =>
                  (.ok messages.length,
                    { m.setPort portId { port' with receiverBlocked := none, maxWaiterPriority := none } with
                      waitingThreads := m.waitingThreads.erase receiverId },
                    some receiverId)
              | none => (.ok messages.length, m.setPort portId port', none)

/-- The loop of `recv_batch`: at most `n` messages off the front of the queue, each counted as
received; a message that fails validation is already off the queue when the error returns, and
the messages taken before it are dropped with the result. -/
def recvLoop (regionInfo : RegionId → Option Nat) :
    Nat → List Message → List Message → IpcPortMetrics →
      Except IpcError (List Message) × List Message × IpcPortMetrics
  | 0, queue, acc, mt => (.ok acc, queue, mt)
  | _ + 1, [], acc, mt => (.ok acc, [], mt)
  | n + 1, msg :: rest, acc, mt =>
      match validatePayloadAndSize regionInfo msg with
      | .error e => (.error e, rest, mt)
      | .ok size => recvLoop regionInfo n rest (acc ++ [msg]) (mt.recordReceive size)

/-- `IpcManager::recv_batch`. -/
def recvBatch (m : IpcManager) (regionInfo : RegionId → Option Nat) (portId : PortId)
    (_caller : ThreadId) (maxCount : Nat) : Except IpcError (List Message) × IpcManager :=
  match m.ports.lookup portId with
  | none => (.error .invalidPort, m)
  | some port =>
      let (r, queue, metrics) :=
        recvLoop regionInfo (min maxCount MAX_BATCH_SIZE) port.messages [] port.metrics
      (r, m.setPort portId { port with messages := queue, metrics })

/-- `IpcManager::try_recv`: the front message is taken off the queue, then validated, then
counted as received.  The caller only enters the trace. -/
def tryRecv (m : IpcManager) (regionInfo : RegionId → Option Nat) (portId : PortId)
    (_caller : ThreadId) : Except IpcError (Option Message) × IpcManager :=
  match m.ports.lookup portId with
  | none => (.error .invalidPort, m)
  | some port =>
      match port.messages with
      | [] => (.ok none, m)
      | msg :: rest =>
          match validatePayloadAndSize regionInfo msg with
          | .error e => (.error e, m.setPort portId { port with messages := rest })
          | .ok size =>
              (.ok (some msg), m.setPort portId
                { port with messages := rest, metrics := port.metrics.recordReceive size })

/-- The loop of `detect_deadlock`, with `fuel` the iterations its step bound still allows: from
a port to its owner, and from the owner to the port it waits on. -/
def detectDeadlockAux (m : IpcManager) (start : ThreadId) : Nat → Option PortId → Bool
  | 0, _ => false
  | _ + 1, none => false
  | fuel + 1, some portId =>
      match m.ports.lookup portId with
      | none => false
      | some port =>
          if port.owner = start then true
          else detectDeadlockAux m start fuel ((m.waitingThreads.lookup port.owner).map WaiterInfo.port)

/-- `IpcManager::detect_deadlock`: the loop stops once its step count passes the number of
ports plus the number of waiters. -/
def detectDeadlock (m : IpcManager) (start : ThreadId) (targetPort : PortId) : Bool :=
  detectDeadlockAux m start (m.ports.keys.card + m.waitingThreads.keys.card + 1) (some targetPort)

/-- `IpcManager::block_recv`: the caller becomes the port's blocked receiver and a waiter. -/
def blockRecv (m : IpcManager) (portId : PortId) (caller : ThreadId) (callerPriority : ThreadPriority)
    (deadline : Option UInt64) : Except IpcError Unit × IpcManager :=
  if portId ∉ m.ports then (.error .invalidPort, m)
  else if m.detectDeadlock caller portId then (.error .deadlockDetected, m)
  else
    match m.ports.lookup portId with
    | none => (.error .invalidPort, m)
    | some port =>
        if port.receiverBlocked.isSome then (.error .portBusy, m)
        else
          let port' := { port with
            receiverBlocked := some caller
            maxWaiterPriority := some ((port.maxWaiterPriority.map fun p => p.max callerPriority).getD
              callerPriority) }
          (.ok (), { m.setPort portId port' with
            waitingThreads := m.waitingThreads.insert caller ⟨portId, deadline⟩ })

/-- `IpcManager::get_max_waiter_priority`. -/
def getMaxWaiterPriority (m : IpcManager) (portId : PortId) : Option ThreadPriority :=
  (m.ports.lookup portId).bind PortState.maxWaiterPriority

/-- The waiters of `handle_timeouts` whose deadline `currentTicks` has reached, in the order of
the thread ids, with the port each waits on. -/
def expiredWaiters (m : IpcManager) (currentTicks : UInt64) : List (ThreadId × PortId) :=
  (m.waitingThreads.keys.sort (· ≤ ·)).filterMap fun tid =>
    (m.waitingThreads.lookup tid).bind fun info =>
      match info.deadline with
      | some deadline => if currentTicks ≥ deadline then some (tid, info.port) else none
      | none => none

/-- The second loop of `handle_timeouts`: a port whose blocked receiver is the expired thread is
released. -/
def releasePort (ports : Finmap fun _ : PortId => PortState) (expired : ThreadId × PortId) :
    Finmap fun _ : PortId => PortState :=
  match ports.lookup expired.2 with
  | some port =>
      if port.receiverBlocked = some expired.1 then
        ports.insert expired.2 { port with receiverBlocked := none, maxWaiterPriority := none }
      else ports
  | none => ports

/-- `IpcManager::handle_timeouts`: the expired waiters are released from their ports and removed
from the waiters; they are returned for the scheduler to wake (`mark_thread_ready` and
`restore_priority`). -/
def handleTimeouts (m : IpcManager) (currentTicks : UInt64) : List (ThreadId × PortId) × IpcManager :=
  let expired := m.expiredWaiters currentTicks
  if expired.isEmpty then ([], m)
  else
    (expired, { m with
      ports := expired.foldl releasePort m.ports
      waitingThreads := expired.foldl (fun w e => w.erase e.1) m.waitingThreads })

/-! ### Sending and receiving -/

variable {m : IpcManager}

/-- The messages queued at `portId`, empty for a port that does not exist. -/
def queue (m : IpcManager) (portId : PortId) : List Message :=
  ((m.ports.lookup portId).map PortState.messages).getD []

@[simp] theorem queue_setPort (portId p : PortId) (port : PortState) :
    (m.setPort portId port).queue p = if p = portId then port.messages else m.queue p := by
  unfold queue setPort
  by_cases h : p = portId
  · subst h
    simp
  · simp [h, Finmap.lookup_insert_of_ne _ h]

/-- **`send`, in its outcomes**: an error leaves the manager as it was; success appends the
message to the queue of an existing port that held fewer than `MAX_QUEUE_DEPTH` messages. -/
theorem send_cases (regionInfo : RegionId → Option Nat) (portId : PortId) (message : Message) :
    (∃ e, m.send regionInfo portId message = (.error e, m)) ∨
    ∃ port size, m.ports.lookup portId = some port ∧ port.messages.length < MAX_QUEUE_DEPTH ∧
      validatePayloadAndSize regionInfo message = .ok size ∧
      m.send regionInfo portId message = (.ok (), m.setPort portId
        { port with messages := port.messages ++ [message], metrics := port.metrics.recordSend size }) := by
  unfold send
  cases hp : m.ports.lookup portId with
  | none => exact .inl ⟨.invalidPort, rfl⟩
  | some port =>
      cases hv : validatePayloadAndSize regionInfo message with
      | error e => exact .inl ⟨e, rfl⟩
      | ok size =>
          by_cases hq : port.messages.length ≥ MAX_QUEUE_DEPTH
          · exact .inl ⟨.queueFull, by simp [hq]⟩
          · exact .inr ⟨port, size, rfl, Nat.lt_of_not_ge hq, rfl, by simp [hq]⟩

/-- **`send` keeps every queue within `MAX_QUEUE_DEPTH`.** -/
theorem send_queue_le (hq : ∀ p, (m.queue p).length ≤ MAX_QUEUE_DEPTH)
    (regionInfo : RegionId → Option Nat) (portId : PortId) (message : Message) (p : PortId) :
    ((m.send regionInfo portId message).2.queue p).length ≤ MAX_QUEUE_DEPTH := by
  rcases send_cases regionInfo portId message with ⟨e, he⟩ | ⟨port, _, -, hlt, -, he⟩
  · rw [he]
    exact hq p
  · rw [he, queue_setPort]
    split_ifs
    · rw [List.length_append, List.length_singleton]
      exact hlt
    · exact hq p

/-- **`try_recv`, in its outcomes**: no port, an empty queue, or the front message taken off the
queue; only then is it validated, and counted as received if it passes. -/
theorem tryRecv_cases (regionInfo : RegionId → Option Nat) (portId : PortId) (caller : ThreadId) :
    (m.ports.lookup portId = none ∧ m.tryRecv regionInfo portId caller = (.error .invalidPort, m)) ∨
    (∃ port, m.ports.lookup portId = some port ∧ port.messages = [] ∧
      m.tryRecv regionInfo portId caller = (.ok none, m)) ∨
    ∃ port msg rest, m.ports.lookup portId = some port ∧ port.messages = msg :: rest ∧
      ((∃ e, validatePayloadAndSize regionInfo msg = .error e ∧
          m.tryRecv regionInfo portId caller = (.error e, m.setPort portId { port with messages := rest })) ∨
        ∃ size, validatePayloadAndSize regionInfo msg = .ok size ∧
          m.tryRecv regionInfo portId caller = (.ok (some msg), m.setPort portId
            { port with messages := rest, metrics := port.metrics.recordReceive size })) := by
  unfold tryRecv
  cases hp : m.ports.lookup portId with
  | none => exact .inl ⟨rfl, rfl⟩
  | some port =>
      cases hm : port.messages with
      | nil => exact .inr (.inl ⟨port, rfl, hm, by simp only [hm]⟩)
      | cons msg rest =>
          refine .inr (.inr ⟨port, msg, rest, rfl, hm, ?_⟩)
          cases hv : validatePayloadAndSize regionInfo msg with
          | error e => exact .inl ⟨e, rfl, by simp only [hm, hv]⟩
          | ok size => exact .inr ⟨size, rfl, by simp only [hm, hv]⟩

/-! ### What each call does -/

/-- **`send_batch`, in its outcomes**: nothing changes, or the whole batch is appended to an
existing port with room for it, and the receiver blocked there, if any, is released. -/
theorem sendBatch_cases (regionInfo : RegionId → Option Nat) (portId : PortId)
    (messages : List Message) :
    (∃ r, m.sendBatch regionInfo portId messages = (r, m, none)) ∨
    ∃ port sizes, m.ports.lookup portId = some port ∧
      messages.mapM (validatePayloadAndSize regionInfo) = .ok sizes ∧
      port.messages.length + messages.length ≤ MAX_QUEUE_DEPTH ∧
      ((port.receiverBlocked = none ∧ m.sendBatch regionInfo portId messages =
          (.ok messages.length, m.setPort portId { port with
            messages := port.messages ++ messages
            metrics := sizes.foldl IpcPortMetrics.recordSend port.metrics }, none)) ∨
        ∃ receiverId, port.receiverBlocked = some receiverId ∧ m.sendBatch regionInfo portId messages =
          (.ok messages.length, { m.setPort portId { port with
              messages := port.messages ++ messages
              metrics := sizes.foldl IpcPortMetrics.recordSend port.metrics
              receiverBlocked := none
              maxWaiterPriority := none } with
            waitingThreads := m.waitingThreads.erase receiverId }, some receiverId)) := by
  unfold sendBatch
  by_cases he : messages.isEmpty = true
  · exact .inl ⟨_, by rw [if_pos he]⟩
  by_cases hb : messages.length > MAX_BATCH_SIZE
  · exact .inl ⟨_, by rw [if_neg he, if_pos hb]⟩
  rw [if_neg he, if_neg hb]
  cases hp : m.ports.lookup portId with
  | none => exact .inl ⟨_, rfl⟩
  | some port =>
      cases hv : messages.mapM (validatePayloadAndSize regionInfo) with
      | error e => exact .inl ⟨_, rfl⟩
      | ok sizes =>
          by_cases hq : port.messages.length + messages.length > MAX_QUEUE_DEPTH
          · exact .inl ⟨.error .queueFull, if_pos hq⟩
          refine .inr ⟨port, sizes, rfl, rfl, Nat.le_of_not_gt hq, ?_⟩
          simp only [hq, if_false]
          cases hr : port.receiverBlocked with
          | none => exact .inl ⟨rfl, rfl⟩
          | some receiverId => exact .inr ⟨receiverId, rfl, rfl⟩

/-- The queue `recv_batch` leaves is what its loop did not take. -/
theorem recvLoop_length_le (regionInfo : RegionId → Option Nat) :
    ∀ (n : Nat) (queue acc : List Message) (mt : IpcPortMetrics),
      (recvLoop regionInfo n queue acc mt).2.1.length ≤ queue.length
  | 0, queue, _, _ => le_refl _
  | _ + 1, [], _, _ => le_refl _
  | n + 1, msg :: rest, acc, mt => by
      unfold recvLoop
      split
      · exact Nat.le_succ _
      · exact (recvLoop_length_le regionInfo n rest _ _).trans (Nat.le_succ _)

/-- **`recv_batch`, in its outcomes**: no port, or the port keeps what the loop left. -/
theorem recvBatch_cases (regionInfo : RegionId → Option Nat) (portId : PortId) (caller : ThreadId)
    (maxCount : Nat) :
    (m.ports.lookup portId = none ∧ m.recvBatch regionInfo portId caller maxCount = (.error .invalidPort, m)) ∨
    ∃ port, m.ports.lookup portId = some port ∧
      let loop := recvLoop regionInfo (min maxCount MAX_BATCH_SIZE) port.messages [] port.metrics
      m.recvBatch regionInfo portId caller maxCount =
        (loop.1, m.setPort portId { port with messages := loop.2.1, metrics := loop.2.2 }) := by
  unfold recvBatch
  cases hp : m.ports.lookup portId with
  | none => exact .inl ⟨rfl, rfl⟩
  | some port => exact .inr ⟨port, rfl, rfl⟩

/-- **`block_recv`, in its outcomes**: nothing changes, or the caller becomes the blocked receiver
of an existing port that had none, and a waiter on it. -/
theorem blockRecv_cases (portId : PortId) (caller : ThreadId) (callerPriority : ThreadPriority)
    (deadline : Option UInt64) :
    (∃ e, m.blockRecv portId caller callerPriority deadline = (.error e, m)) ∨
    ∃ port, m.ports.lookup portId = some port ∧ m.detectDeadlock caller portId = false ∧
      port.receiverBlocked = none ∧
      m.blockRecv portId caller callerPriority deadline = (.ok (), { m.setPort portId { port with
          receiverBlocked := some caller
          maxWaiterPriority := some ((port.maxWaiterPriority.map fun p => p.max callerPriority).getD
            callerPriority) } with
        waitingThreads := m.waitingThreads.insert caller ⟨portId, deadline⟩ }) := by
  unfold blockRecv
  by_cases hmem : portId ∉ m.ports
  · exact .inl ⟨_, by rw [if_pos hmem]⟩
  rw [if_neg hmem]
  by_cases hd : m.detectDeadlock caller portId = true
  · exact .inl ⟨_, by rw [if_pos hd]⟩
  rw [if_neg hd]
  cases hp : m.ports.lookup portId with
  | none => exact .inl ⟨_, rfl⟩
  | some port =>
      cases hr : port.receiverBlocked with
      | some t => exact .inl ⟨.portBusy, by simp [hr]⟩
      | none => exact .inr ⟨port, rfl, Bool.eq_false_iff.mpr hd, hr, by simp [hr]⟩

/-- **`close_port`, in its outcomes**: nothing changes, or its owner's port is removed. -/
theorem closePort_cases (portId : PortId) (caller : ThreadId) :
    (∃ e, m.closePort portId caller = (.error e, m)) ∨
    (∃ port, m.ports.lookup portId = some port ∧ port.owner = caller ∧
      m.closePort portId caller = (.ok (), { m with ports := m.ports.erase portId })) := by
  unfold closePort
  cases hp : m.ports.lookup portId with
  | none => exact .inl ⟨_, rfl⟩
  | some port =>
      by_cases ho : port.owner ≠ caller
      · exact .inl ⟨.permissionDenied, if_pos ho⟩
      · exact .inr ⟨port, rfl, not_not.mp ho, if_neg ho⟩

/-- `releasePort` keeps whatever of a port its release does not touch. -/
theorem map_lookup_releasePort {β : Type*} (π : PortState → β)
    (hπ : ∀ port : PortState, π { port with receiverBlocked := none, maxWaiterPriority := none } = π port)
    (ports : Finmap fun _ : PortId => PortState) (e : ThreadId × PortId) (p : PortId) :
    ((releasePort ports e).lookup p).map π = (ports.lookup p).map π := by
  unfold releasePort
  split
  · rename_i port hport
    split_ifs
    · by_cases hpe : p = e.2
      · subst hpe
        simp [hport, hπ]
      · rw [Finmap.lookup_insert_of_ne _ hpe]
    · rfl
  · rfl

theorem map_lookup_foldl_releasePort {β : Type*} (π : PortState → β)
    (hπ : ∀ port : PortState, π { port with receiverBlocked := none, maxWaiterPriority := none } = π port)
    (p : PortId) : ∀ (es : List (ThreadId × PortId)) (ports : Finmap fun _ : PortId => PortState),
      ((es.foldl releasePort ports).lookup p).map π = (ports.lookup p).map π
  | [], _ => rfl
  | e :: es, ports => by
      rw [List.foldl_cons, map_lookup_foldl_releasePort π hπ p es, map_lookup_releasePort π hπ]

/-- `handle_timeouts` keeps whatever of a port a release does not touch. -/
theorem map_lookup_handleTimeouts {β : Type*} (π : PortState → β)
    (hπ : ∀ port : PortState, π { port with receiverBlocked := none, maxWaiterPriority := none } = π port)
    (currentTicks : UInt64) (p : PortId) :
    (((m.handleTimeouts currentTicks).2.ports.lookup p).map π) = (m.ports.lookup p).map π := by
  unfold handleTimeouts
  dsimp only
  split_ifs
  · rfl
  · exact map_lookup_foldl_releasePort π hπ p _ _

theorem lookup_foldl_erase {t : ThreadId} {info : WaiterInfo} :
    ∀ (es : List (ThreadId × PortId)) (w : Finmap fun _ : ThreadId => WaiterInfo),
      (es.foldl (fun w e => w.erase e.1) w).lookup t = some info → w.lookup t = some info
  | [], _, h => h
  | e :: es, w, h => by
      have h' := lookup_foldl_erase es _ h
      by_cases hte : t = e.1
      · subst hte
        rw [Finmap.lookup_erase] at h'
        cases h'
      · rwa [Finmap.lookup_erase_ne hte] at h'

/-- `handle_timeouts` only removes waiters. -/
theorem lookup_waiting_handleTimeouts {currentTicks : UInt64} {t : ThreadId} {info : WaiterInfo}
    (h : (m.handleTimeouts currentTicks).2.waitingThreads.lookup t = some info) :
    m.waitingThreads.lookup t = some info := by
  unfold handleTimeouts at h
  dsimp only at h
  split_ifs at h
  · exact h
  · exact lookup_foldl_erase _ _ h

/-! ### The queue bound -/

/-- Every queue holds at most `MAX_QUEUE_DEPTH` messages. -/
def QueuesBounded (m : IpcManager) : Prop := ∀ p, (m.queue p).length ≤ MAX_QUEUE_DEPTH

theorem queue_of_lookup {portId : PortId} {port : PortState} (h : m.ports.lookup portId = some port) :
    m.queue portId = port.messages := by
  simp [queue, h]

theorem QueuesBounded.setPort (h : m.QueuesBounded) {portId : PortId} {port : PortState}
    (hlen : port.messages.length ≤ MAX_QUEUE_DEPTH) : (m.setPort portId port).QueuesBounded := by
  intro p
  rw [queue_setPort]
  split_ifs
  · exact hlen
  · exact h p

/-- A port whose queue got no longer. -/
theorem QueuesBounded.setPort_le (h : m.QueuesBounded) {portId : PortId} {port port' : PortState}
    (hport : m.ports.lookup portId = some port) (hle : port'.messages.length ≤ port.messages.length) :
    (m.setPort portId port').QueuesBounded :=
  h.setPort (hle.trans (queue_of_lookup hport ▸ h portId))

theorem QueuesBounded.send (h : m.QueuesBounded) (regionInfo : RegionId → Option Nat)
    (portId : PortId) (message : Message) : (m.send regionInfo portId message).2.QueuesBounded :=
  send_queue_le h regionInfo portId message

theorem QueuesBounded.sendBatch (h : m.QueuesBounded) (regionInfo : RegionId → Option Nat)
    (portId : PortId) (messages : List Message) :
    (m.sendBatch regionInfo portId messages).2.1.QueuesBounded := by
  rcases sendBatch_cases regionInfo portId messages with
    ⟨r, he⟩ | ⟨port, sizes, -, -, hle, ⟨-, he⟩ | ⟨receiverId, -, he⟩⟩ <;> rw [he]
  · exact h
  · exact h.setPort (by rw [List.length_append]; exact hle)
  -- the waiters do not enter the queues
  · exact h.setPort (m := m) (by rw [List.length_append]; exact hle)

theorem QueuesBounded.tryRecv (h : m.QueuesBounded) (regionInfo : RegionId → Option Nat)
    (portId : PortId) (caller : ThreadId) : (m.tryRecv regionInfo portId caller).2.QueuesBounded := by
  rcases tryRecv_cases regionInfo portId caller with
    ⟨-, he⟩ | ⟨-, -, -, he⟩ | ⟨port, msg, rest, hp, hm, ⟨e, -, he⟩ | ⟨size, -, he⟩⟩ <;> rw [he]
  · exact h
  · exact h
  · exact h.setPort_le hp (by rw [hm, List.length_cons]; exact Nat.le_succ _)
  · exact h.setPort_le hp (by rw [hm, List.length_cons]; exact Nat.le_succ _)

theorem QueuesBounded.recvBatch (h : m.QueuesBounded) (regionInfo : RegionId → Option Nat)
    (portId : PortId) (caller : ThreadId) (maxCount : Nat) :
    (m.recvBatch regionInfo portId caller maxCount).2.QueuesBounded := by
  rcases recvBatch_cases regionInfo portId caller maxCount with ⟨-, he⟩ | ⟨port, hp, he⟩ <;> rw [he]
  · exact h
  · exact h.setPort_le hp (recvLoop_length_le regionInfo _ _ _ _)

theorem QueuesBounded.blockRecv (h : m.QueuesBounded) (portId : PortId) (caller : ThreadId)
    (callerPriority : ThreadPriority) (deadline : Option UInt64) :
    (m.blockRecv portId caller callerPriority deadline).2.QueuesBounded := by
  rcases blockRecv_cases portId caller callerPriority deadline with ⟨e, he⟩ | ⟨port, hp, -, -, he⟩ <;>
    rw [he]
  · exact h
  · exact h.setPort_le (m := m) hp le_rfl

theorem QueuesBounded.handleTimeouts (h : m.QueuesBounded) (currentTicks : UInt64) :
    (m.handleTimeouts currentTicks).2.QueuesBounded := by
  intro p
  have hq : (m.handleTimeouts currentTicks).2.queue p = m.queue p := by
    unfold queue
    rw [map_lookup_handleTimeouts PortState.messages (fun _ => rfl)]
  rw [hq]
  exact h p

theorem QueuesBounded.createPort (h : m.QueuesBounded) (owner : ThreadId) :
    (m.createPort owner).2.QueuesBounded := by
  have hnew : (PortState.new m.nextPortId owner).messages.length ≤ MAX_QUEUE_DEPTH := Nat.zero_le _
  exact h.setPort hnew

theorem QueuesBounded.closePort (h : m.QueuesBounded) (portId : PortId) (caller : ThreadId) :
    (m.closePort portId caller).2.QueuesBounded := by
  rcases closePort_cases portId caller with ⟨e, he⟩ | ⟨-, -, -, he⟩ <;> rw [he]
  · exact h
  · intro p
    by_cases hp : p = portId
    · subst hp
      simp [queue, Finmap.lookup_erase]
    · simpa [queue, Finmap.lookup_erase_ne hp] using h p

/-! ### The recorded waiter priorities -/

/-- No port records a waiter above `bound` (`max_waiter_priority`). -/
def WaitersBelow (bound : ThreadPriority) (m : IpcManager) : Prop :=
  ∀ p port q, m.ports.lookup p = some port → port.maxWaiterPriority = some q →
    q.toNat ≤ bound.toNat

variable {bound : ThreadPriority}

theorem WaitersBelow.setPort (h : m.WaitersBelow bound) {portId : PortId} {port : PortState}
    (hq : ∀ q, port.maxWaiterPriority = some q → q.toNat ≤ bound.toNat) :
    (m.setPort portId port).WaitersBelow bound := by
  intro p port' q hp hq'
  unfold IpcManager.setPort at hp
  by_cases hpid : p = portId
  · subst hpid
    rw [Finmap.lookup_insert, Option.some.injEq] at hp
    subst hp
    exact hq q hq'
  · rw [Finmap.lookup_insert_of_ne _ hpid] at hp
    exact h p port' q hp hq'

/-- A port stored back with the waiter priority it had. -/
theorem WaitersBelow.setPort_of_eq (h : m.WaitersBelow bound) {portId : PortId}
    {port port' : PortState} (hport : m.ports.lookup portId = some port)
    (heq : port'.maxWaiterPriority = port.maxWaiterPriority) :
    (m.setPort portId port').WaitersBelow bound :=
  h.setPort fun q hq => h portId port q hport (heq.symm.trans hq)

theorem WaitersBelow.send (h : m.WaitersBelow bound) (regionInfo : RegionId → Option Nat)
    (portId : PortId) (message : Message) : (m.send regionInfo portId message).2.WaitersBelow bound := by
  rcases send_cases regionInfo portId message with ⟨e, he⟩ | ⟨port, size, hp, -, -, he⟩ <;> rw [he]
  · exact h
  · exact h.setPort_of_eq hp rfl

theorem WaitersBelow.sendBatch (h : m.WaitersBelow bound) (regionInfo : RegionId → Option Nat)
    (portId : PortId) (messages : List Message) :
    (m.sendBatch regionInfo portId messages).2.1.WaitersBelow bound := by
  rcases sendBatch_cases regionInfo portId messages with
    ⟨r, he⟩ | ⟨port, sizes, hp, -, -, ⟨-, he⟩ | ⟨receiverId, -, he⟩⟩ <;> rw [he]
  · exact h
  · exact h.setPort_of_eq hp rfl
  -- releasing the receiver clears the port's waiter priority
  · exact h.setPort fun q hq => by cases hq

theorem WaitersBelow.tryRecv (h : m.WaitersBelow bound) (regionInfo : RegionId → Option Nat)
    (portId : PortId) (caller : ThreadId) : (m.tryRecv regionInfo portId caller).2.WaitersBelow bound := by
  rcases tryRecv_cases regionInfo portId caller with
    ⟨-, he⟩ | ⟨-, -, -, he⟩ | ⟨port, msg, rest, hp, -, ⟨e, -, he⟩ | ⟨size, -, he⟩⟩ <;> rw [he]
  · exact h
  · exact h
  · exact h.setPort_of_eq hp rfl
  · exact h.setPort_of_eq hp rfl

theorem WaitersBelow.recvBatch (h : m.WaitersBelow bound) (regionInfo : RegionId → Option Nat)
    (portId : PortId) (caller : ThreadId) (maxCount : Nat) :
    (m.recvBatch regionInfo portId caller maxCount).2.WaitersBelow bound := by
  rcases recvBatch_cases regionInfo portId caller maxCount with ⟨-, he⟩ | ⟨port, hp, he⟩ <;> rw [he]
  · exact h
  · exact h.setPort_of_eq hp rfl

/-- A caller blocking at a priority within the bound keeps every recorded priority within it. -/
theorem WaitersBelow.blockRecv (h : m.WaitersBelow bound) (portId : PortId) (caller : ThreadId)
    {callerPriority : ThreadPriority} (hprio : callerPriority.toNat ≤ bound.toNat)
    (deadline : Option UInt64) :
    (m.blockRecv portId caller callerPriority deadline).2.WaitersBelow bound := by
  rcases blockRecv_cases portId caller callerPriority deadline with
    ⟨e, he⟩ | ⟨port, hp, -, -, he⟩ <;> rw [he]
  · exact h
  refine h.setPort fun q hq => ?_
  -- the new record is the caller's priority, or its maximum with the old one
  cases hold : port.maxWaiterPriority with
  | none =>
      simp only [hold, Option.map_none, Option.getD_none, Option.some.injEq] at hq
      exact hq ▸ hprio
  | some old =>
      simp only [hold, Option.map_some, Option.getD_some, Option.some.injEq] at hq
      exact hq ▸ ThreadPriority.toNat_max_le (h portId port old hp hold) hprio

/-- A release clears the waiter priority it touches. -/
theorem WaitersBelow.releasePort (h : m.WaitersBelow bound) (e : ThreadId × PortId) :
    ({ m with ports := IpcManager.releasePort m.ports e } : IpcManager).WaitersBelow bound := by
  unfold IpcManager.releasePort
  split
  · split_ifs
    · exact h.setPort fun q hq => by cases hq
    · exact h
  · exact h

theorem WaitersBelow.foldl_releasePort :
    ∀ (es : List (ThreadId × PortId)) (m : IpcManager), m.WaitersBelow bound →
      ({ m with ports := es.foldl IpcManager.releasePort m.ports } : IpcManager).WaitersBelow bound
  | [], _, h => h
  | e :: es, _, h => WaitersBelow.foldl_releasePort es _ (h.releasePort e)

theorem WaitersBelow.handleTimeouts (h : m.WaitersBelow bound) (currentTicks : UInt64) :
    (m.handleTimeouts currentTicks).2.WaitersBelow bound := by
  unfold IpcManager.handleTimeouts
  dsimp only
  split_ifs
  · exact h
  · exact WaitersBelow.foldl_releasePort _ m h

theorem WaitersBelow.createPort (h : m.WaitersBelow bound) (owner : ThreadId) :
    (m.createPort owner).2.WaitersBelow bound := by
  -- a new port records no waiter
  have hnew : ∀ q, (PortState.new m.nextPortId owner).maxWaiterPriority = some q →
      q.toNat ≤ bound.toNat := fun q hq => by cases hq
  exact h.setPort hnew

theorem WaitersBelow.closePort (h : m.WaitersBelow bound) (portId : PortId) (caller : ThreadId) :
    (m.closePort portId caller).2.WaitersBelow bound := by
  rcases closePort_cases portId caller with ⟨e, he⟩ | ⟨-, -, -, he⟩ <;> rw [he]
  · exact h
  · intro p port q hp hq
    by_cases hpid : p = portId
    · subst hpid
      simp [Finmap.lookup_erase] at hp
    · rw [Finmap.lookup_erase_ne hpid] at hp
      exact h p port q hp hq

end IpcManager

end Atom
