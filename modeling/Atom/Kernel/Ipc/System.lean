import Atom.Lib.Reach
import Atom.Kernel.Ipc.Port
import Atom.Kernel.Mm.Vm

/-!
# IPC — the IPC system and its runs

The IPC manager together with the shared-memory regions of `kernel/src/shared_mem.rs`, whose
sizes validate the messages that travel in a region (`IpcSys`), as a transition system: from
the empty manager, any sequence of the manager's calls, made by any threads with any arguments,
and of regions created and destroyed (`IpcCall`).

* `queue_le_maxQueueDepth`: no queue ever holds more than `MAX_QUEUE_DEPTH` messages.
* `tryRecv_regionLost`: a receive whose front message no longer validates fails, and the
  message is gone, counted as sent and never as received.
* `send_blockedReceiver`: `send` wakes no one, so a receiver blocked on the port stays blocked
  with the message queued.

A region's pages and mappings are left out: the IPC manager reads only a region's size, and the
runs here map no region, so `destroy_region` removes any region at its owner's request.
-/

namespace Atom

open Lib

/-! ### Shared-memory regions -/

/-- `SharedMemError`. -/
inductive SharedMemError where
  | invalidRegion
  | invalidSize
  | permissionDenied
  | outOfMemory
  | unaligned
  | alreadyMapped
  | notMapped
  | mappingFailed
  | regionInUse
  deriving DecidableEq, Repr

/-- `SharedRegion`, less its pages and mappings. -/
structure SharedRegion where
  id : RegionId
  owner : ThreadId
  size : Nat
  deriving DecidableEq, Repr

/-- `SharedMemManager`, with the counter of `RegionId::new`. -/
structure SharedMemManager where
  regions : Finmap fun _ : RegionId => SharedRegion
  nextRegionId : RegionId

namespace SharedMemManager

/-- `SharedMemManager::new`; `RegionId::new` starts at one. -/
def new : SharedMemManager := ⟨∅, 1⟩

/-- `SharedMemManager::create_region`: the id is drawn before `SharedRegion::new` runs, which
fails on an empty size, or when `pmm` runs out of pages (`pagesOk = false`), and keeps the size
rounded up to whole pages. -/
def createRegion (sm : SharedMemManager) (owner : ThreadId) (size : Nat) (pagesOk : Bool) :
    Except SharedMemError RegionId × SharedMemManager :=
  let regionId := sm.nextRegionId
  let sm₁ := { sm with nextRegionId := regionId + 1 }
  if alignUp size / PAGE_SIZE = 0 then (.error .invalidSize, sm₁)
  else if !pagesOk then (.error .outOfMemory, sm₁)
  else (.ok regionId, { sm₁ with regions := sm.regions.insert regionId ⟨regionId, owner, alignUp size⟩ })

/-- `SharedMemManager::destroy_region`, for a region nobody maps: only its owner destroys it. -/
def destroyRegion (sm : SharedMemManager) (regionId : RegionId) (caller : ThreadId) :
    Except SharedMemError Unit × SharedMemManager :=
  match sm.regions.lookup regionId with
  | none => (.error .invalidRegion, sm)
  | some region =>
      if region.owner ≠ caller then (.error .permissionDenied, sm)
      else (.ok (), { sm with regions := sm.regions.erase regionId })

/-- `get_region_info(region).size`, the size `validate_payload_and_size` reads. -/
def regionInfo (sm : SharedMemManager) (regionId : RegionId) : Option Nat :=
  (sm.regions.lookup regionId).map SharedRegion.size

end SharedMemManager

/-! ### The system -/

/-- The IPC manager and the regions its messages may travel in. -/
structure IpcSys where
  ipc : IpcManager
  shm : SharedMemManager

/-- A call on the IPC manager or on the regions, by any thread, with any arguments. -/
inductive IpcCall where
  | createPort (owner : ThreadId)
  | closePort (portId : PortId) (caller : ThreadId)
  | send (portId : PortId) (message : Message)
  | sendBatch (portId : PortId) (messages : List Message)
  | tryRecv (portId : PortId) (caller : ThreadId)
  | recvBatch (portId : PortId) (caller : ThreadId) (maxCount : Nat)
  | blockRecv (portId : PortId) (caller : ThreadId) (priority : ThreadPriority)
      (deadline : Option UInt64)
  | handleTimeouts (currentTicks : UInt64)
  | createRegion (owner : ThreadId) (size : Nat) (pagesOk : Bool)
  | destroyRegion (regionId : RegionId) (caller : ThreadId)

namespace IpcSys

/-- The empty manager, before any region. -/
def init : IpcSys := ⟨IpcManager.new, SharedMemManager.new⟩

/-- One call; a message is validated against the regions as they are. -/
def apply (s : IpcSys) : IpcCall → IpcSys
  | .createPort owner => { s with ipc := (s.ipc.createPort owner).2 }
  | .closePort portId caller => { s with ipc := (s.ipc.closePort portId caller).2 }
  | .send portId message => { s with ipc := (s.ipc.send s.shm.regionInfo portId message).2 }
  | .sendBatch portId messages =>
      { s with ipc := (s.ipc.sendBatch s.shm.regionInfo portId messages).2.1 }
  | .tryRecv portId caller => { s with ipc := (s.ipc.tryRecv s.shm.regionInfo portId caller).2 }
  | .recvBatch portId caller maxCount =>
      { s with ipc := (s.ipc.recvBatch s.shm.regionInfo portId caller maxCount).2 }
  | .blockRecv portId caller priority deadline =>
      { s with ipc := (s.ipc.blockRecv portId caller priority deadline).2 }
  | .handleTimeouts currentTicks => { s with ipc := (s.ipc.handleTimeouts currentTicks).2 }
  | .createRegion owner size pagesOk => { s with shm := (s.shm.createRegion owner size pagesOk).2 }
  | .destroyRegion regionId caller => { s with shm := (s.shm.destroyRegion regionId caller).2 }

/-- The states reachable from the empty manager. -/
def IsReachable (s : IpcSys) : Prop := Reachable (Det apply) init s

variable {s : IpcSys}

/-! ### The queue bound -/

theorem queuesBounded_apply (h : s.ipc.QueuesBounded) (c : IpcCall) :
    (s.apply c).ipc.QueuesBounded := by
  cases c with
  | createPort owner => exact h.createPort owner
  | closePort portId caller => exact h.closePort portId caller
  | send portId message => exact h.send _ portId message
  | sendBatch portId messages => exact h.sendBatch _ portId messages
  | tryRecv portId caller => exact h.tryRecv _ portId caller
  | recvBatch portId caller maxCount => exact h.recvBatch _ portId caller maxCount
  | blockRecv portId caller priority deadline => exact h.blockRecv portId caller priority deadline
  | handleTimeouts currentTicks => exact h.handleTimeouts currentTicks
  | createRegion => exact h
  | destroyRegion => exact h

/-- **Queues are bounded**: in every reachable state, every port's queue holds at most
`MAX_QUEUE_DEPTH` messages. -/
theorem queue_le_maxQueueDepth (hs : s.IsReachable) (portId : PortId) :
    (s.ipc.queue portId).length ≤ MAX_QUEUE_DEPTH := by
  have hinit : init.ipc.QueuesBounded := fun p => by
    simp [init, IpcManager.new, IpcManager.queue, Finmap.lookup_empty]
  refine hs.induct (P := fun s => s.ipc.QueuesBounded) hinit ?_ portId
  rintro s c _ h rfl
  exact queuesBounded_apply h c

/-- Thread 1 opens port 1 and thread 2 sends to it. -/
theorem queue_le_maxQueueDepth_sentOnce :
    (run apply init [.createPort 1, .send 1 (Message.new 2 7 [])]).IsReachable ∧
    ((run apply init [.createPort 1, .send 1 (Message.new 2 7 [])]).ipc.queue 1).length ≤
      MAX_QUEUE_DEPTH :=
  ⟨Reachable.init.run _, queue_le_maxQueueDepth (Reachable.init.run _) 1⟩

end IpcSys

/-! ### What a receive, a send and a close leave -/

namespace IpcManager

variable {m : IpcManager}

end IpcManager

/-! ### Three runs -/

namespace IpcSys

/-- Thread 1 opens port 1 and a one-page region 1, sends a message in the region to its port,
then destroys the region. -/
def regionLost : IpcSys :=
  run apply init
    [.createPort 1, .createRegion 1 4096 true, .send 1 (Message.newWithSharedRegion 1 7 1),
      .destroyRegion 1 1]

/-- The message was accepted; the receive that follows fails and takes it off the queue, so no
receive will ever return it, and the port counts one message sent, none received, none queued. -/
theorem tryRecv_regionLost :
    regionLost.IsReachable ∧
    regionLost.ipc.queue 1 = [Message.newWithSharedRegion 1 7 1] ∧
    (regionLost.ipc.tryRecv regionLost.shm.regionInfo 1 2).1 = .error .invalidSharedRegion ∧
    (regionLost.apply (.tryRecv 1 2)).ipc.queue 1 = [] ∧
    ((regionLost.apply (.tryRecv 1 2)).ipc.ports.lookup 1).map
      (fun p => (p.metrics.messagesSent, p.metrics.messagesReceived)) = some (1, 0) := by
  refine ⟨Reachable.init.run _, ?_, ?_, ?_, ?_⟩ <;> decide

/-- Thread 1 opens port 1, thread 2 blocks on it, thread 3 sends to it. -/
def blockedThenSent : IpcSys :=
  run apply init [.createPort 1, .blockRecv 1 2 .normal none, .send 1 (Message.new 3 7 [])]

/-- Port 1 has a blocked receiver and a message queued. -/
theorem send_blockedReceiver :
    blockedThenSent.IsReachable ∧
    (blockedThenSent.ipc.ports.lookup 1).map PortState.receiverBlocked = some (some 2) ∧
    blockedThenSent.ipc.queue 1 = [Message.new 3 7 []] ∧
    (blockedThenSent.ipc.waitingThreads.lookup 2).map WaiterInfo.port = some 1 := by
  refine ⟨Reachable.init.run _, ?_, ?_, ?_⟩ <;> decide

end IpcSys

end Atom
