import Atom.Lib.Chain
import Atom.Kernel.Ipc.System

/-!
# IPC — no circular wait

A thread registered as a waiter on a port that exists waits for the port's owner
(`IpcManager.waitsFor`): a graph with at most one edge out of each thread.  `detect_deadlock`
chases it from the owner of the port a thread is about to wait on, for at most as many steps as
there are ports and waiters, which is always enough to see the whole chain
(`detectDeadlock_iff`): the graph has fewer vertices with an edge than there are waiters.

* `detectDeadlock_portChain`: the bounded loop answers as the unbounded walk of the ports it
  visits, `portChain`, would; the cut-off hides no chain that reaches the thread.
* `blockRecv_deadlock_iff`: in every state, `block_recv` answers `DeadlockDetected` exactly when
  the caller's wait would close a cycle through the caller.
* The other calls only remove edges (`Shrinks`), or add a port nobody waits on yet, so the graph
  has no cycle in any reachable state (`GraphInv`).
-/

namespace Atom

open Lib Relation

namespace IpcManager

variable {m m' : IpcManager}

/-- The thread `t` waits for: the owner of the port it is registered on, while that port
exists. -/
def waitsFor (m : IpcManager) (t : ThreadId) : Option ThreadId :=
  (m.waitingThreads.lookup t).bind fun info => m.portOwner info.port

/-! ### The check -/

/-- The loop of `detect_deadlock` chases `waitsFor` from the owner of the port it starts at. -/
theorem detectDeadlockAux_eq (start : ThreadId) :
    ∀ (n : Nat) (q : Option PortId),
      m.detectDeadlockAux start n q = Chain.chase m.waitsFor start n (q.bind m.portOwner)
  | 0, _ => rfl
  | _ + 1, none => rfl
  | n + 1, some portId => by
      unfold detectDeadlockAux
      cases hp : m.ports.lookup portId with
      | none => simp [portOwner, hp, Chain.chase]
      | some port =>
          have hnext := detectDeadlockAux_eq start n
            ((m.waitingThreads.lookup port.owner).map WaiterInfo.port)
          simp only [portOwner, hp, Option.bind_some, Option.map_some, Chain.chase]
          by_cases ho : port.owner = start
          · simp [ho]
          · simp only [ho, if_false, decide_false, Bool.false_or, hnext]
            unfold waitsFor
            cases m.waitingThreads.lookup port.owner <;> rfl

theorem mem_keys_of_waitsFor {v w : ThreadId} (h : m.waitsFor v = some w) :
    v ∈ m.waitingThreads.keys := by
  cases hv : m.waitingThreads.lookup v with
  | none => simp [waitsFor, hv] at h
  | some info => exact Finmap.mem_keys.mpr (Finmap.mem_of_lookup_eq_some hv)

/-- **The check sees the whole chain**: `detect_deadlock` finds `start` exactly when the owner of
the port reaches `start` in the waits-for graph. -/
theorem detectDeadlock_iff (start : ThreadId) (portId : PortId) :
    m.detectDeadlock start portId = true ↔
      ∃ o, m.portOwner portId = some o ∧ ReflTransGen (Chain.Edge m.waitsFor) o start := by
  unfold detectDeadlock
  rw [detectDeadlockAux_eq, Option.bind_some]
  cases ho : m.portOwner portId with
  | none => simp [Chain.chase_none]
  | some o =>
      rw [Chain.chase_eq_true_iff m.waitingThreads.keys (fun _ _ h => mem_keys_of_waitsFor h)
        (by omega)]
      simp

/-- The ports the loop of `detect_deadlock` visits when nothing bounds it: the target port,
then the port the owner of each visited port waits on, until a port or a waiter is missing. -/
def portChain (m : IpcManager) (targetPort : PortId) : Nat → Option PortId
  | 0 => some targetPort
  | k + 1 => (m.portChain targetPort k).bind fun q =>
      (m.portOwner q).bind fun o => (m.waitingThreads.lookup o).map WaiterInfo.port

/-- The owners along the port chain are the walk of the waits-for graph from the target's
owner. -/
theorem bind_portOwner_portChain (targetPort : PortId) (k : Nat) :
    (m.portChain targetPort k).bind m.portOwner =
      (m.portOwner targetPort).bind (Chain.iter m.waitsFor k) := by
  induction k with
  | zero =>
      show m.portOwner targetPort = (m.portOwner targetPort).bind (Chain.iter m.waitsFor 0)
      cases m.portOwner targetPort <;> rfl
  | succ k ih =>
      -- a waiter's port, then its owner, is the waits-for edge
      have hwaits : ∀ o, ((m.waitingThreads.lookup o).map WaiterInfo.port).bind m.portOwner =
          m.waitsFor o := by
        intro o
        unfold waitsFor
        cases m.waitingThreads.lookup o <;> rfl
      calc (m.portChain targetPort (k + 1)).bind m.portOwner
          = ((m.portChain targetPort k).bind m.portOwner).bind m.waitsFor := by
            simp only [portChain, Option.bind_assoc, hwaits]
        _ = (m.portOwner targetPort).bind (Chain.iter m.waitsFor (k + 1)) := by
            rw [ih, Option.bind_assoc]
            simp only [Chain.iter_succ']

/-- **The bounded walk is the unbounded one**: `detect_deadlock` answers `true` exactly when
some port of the unbounded chain from the target port is owned by `start`; and a walk of any
length that finds `start` is seen within the cut-off after `ports.len() + waiting.len()`
steps. -/
theorem detectDeadlock_portChain (start : ThreadId) (targetPort : PortId) :
    (m.detectDeadlock start targetPort = true ↔
      ∃ k q, m.portChain targetPort k = some q ∧ m.portOwner q = some start) ∧
    ∀ n, m.detectDeadlockAux start n (some targetPort) = true →
      m.detectDeadlock start targetPort = true := by
  -- both sides are reachability from the target's owner, by `bind_portOwner_portChain`
  have hchain : (∃ k q, m.portChain targetPort k = some q ∧ m.portOwner q = some start) ↔
      ∃ o, m.portOwner targetPort = some o ∧ ReflTransGen (Chain.Edge m.waitsFor) o start := by
    constructor
    · rintro ⟨k, q, hq, hown⟩
      have h := bind_portOwner_portChain (m := m) targetPort k
      rw [hq, Option.bind_some, hown] at h
      obtain ⟨o, ho, hk⟩ := Option.bind_eq_some_iff.mp h.symm
      exact ⟨o, ho, Chain.reflTransGen_iff_iter.mpr ⟨k, hk⟩⟩
    · rintro ⟨o, ho, hr⟩
      obtain ⟨k, hk⟩ := Chain.reflTransGen_iff_iter.mp hr
      have h := bind_portOwner_portChain (m := m) targetPort k
      rw [ho, Option.bind_some, hk] at h
      obtain ⟨q, hq, hown⟩ := Option.bind_eq_some_iff.mp h
      exact ⟨k, q, hq, hown⟩
  refine ⟨(detectDeadlock_iff start targetPort).trans hchain.symm, fun n hn => ?_⟩
  rw [detectDeadlockAux_eq, Option.bind_some] at hn
  cases ho : m.portOwner targetPort with
  | none =>
      rw [ho, Chain.chase_none] at hn
      cases hn
  | some o =>
      rw [ho, Chain.chase_iff_iter] at hn
      obtain ⟨k, -, hk⟩ := hn
      exact (detectDeadlock_iff start targetPort).mpr ⟨o, ho, Chain.reflTransGen_iff_iter.mpr ⟨k, hk⟩⟩

/-- The check answers for the graph the caller's wait would make: waiting on `portId`, the
caller waits for its owner. -/
theorem detectDeadlock_iff_cycle (caller : ThreadId) (portId : PortId) :
    m.detectDeadlock caller portId = true ↔
      TransGen (Chain.Edge (Function.update m.waitsFor caller (m.portOwner portId))) caller caller := by
  rw [detectDeadlock_iff]
  cases ho : m.portOwner portId with
  | none =>
      simp only [reduceCtorEq, false_and, exists_false, false_iff]
      intro hc
      obtain ⟨z, hz, -⟩ := TransGen.head'_iff.mp hc
      simp [Chain.Edge] at hz
  | some o =>
      rw [Chain.transGen_update_self_iff]
      simp

/-- **`block_recv` refuses exactly the waits that close a cycle**: in every state, it answers
`DeadlockDetected` exactly when the port exists and the caller waiting for its owner would close
a cycle through the caller. -/
theorem blockRecv_deadlock_iff (portId : PortId) (caller : ThreadId) (priority : ThreadPriority)
    (deadline : Option UInt64) :
    (m.blockRecv portId caller priority deadline).1 = .error .deadlockDetected ↔
      portId ∈ m.ports ∧
        TransGen (Chain.Edge (Function.update m.waitsFor caller (m.portOwner portId))) caller caller := by
  rw [← detectDeadlock_iff_cycle]
  unfold blockRecv
  by_cases hmem : portId ∉ m.ports
  · simp [hmem]
  rw [if_neg hmem]
  by_cases hd : m.detectDeadlock caller portId = true
  · simp [hd, not_not.mp hmem]
  rw [if_neg hd]
  simp only [hd]
  -- past the check, the call fails otherwise or succeeds
  split
  · simp
  · split_ifs <;> simp

/-! ### What the calls do to the graph -/

/-- `m'` has the ports of `m` or fewer, with the same owners, and its waiters or fewer; the
counter is kept. -/
structure Shrinks (m m' : IpcManager) : Prop where
  owner : ∀ p o, m'.portOwner p = some o → m.portOwner p = some o
  waiting : ∀ t info, m'.waitingThreads.lookup t = some info → m.waitingThreads.lookup t = some info
  next : m'.nextPortId = m.nextPortId

theorem Shrinks.refl (m : IpcManager) : Shrinks m m := ⟨fun _ _ h => h, fun _ _ h => h, rfl⟩

theorem Shrinks.waitsFor (h : Shrinks m m') {v w : ThreadId} (hw : m'.waitsFor v = some w) :
    m.waitsFor v = some w := by
  unfold IpcManager.waitsFor at hw ⊢
  obtain ⟨info, hinfo, ho⟩ := Option.bind_eq_some_iff.mp hw
  rw [h.waiting v info hinfo, Option.bind_some]
  exact h.owner _ _ ho

theorem portOwner_setPort {portId : PortId} {port port' : PortState}
    (hport : m.ports.lookup portId = some port) (howner : port'.owner = port.owner) :
    (m.setPort portId port').portOwner = m.portOwner := by
  funext p
  by_cases hp : p = portId
  · subst hp
    simp [portOwner, setPort, Finmap.lookup_insert, hport, howner]
  · simp [portOwner, setPort, Finmap.lookup_insert_of_ne _ hp]

/-- A new port is owned by its creator. -/
theorem portOwner_createPort (owner : ThreadId) (p : PortId) :
    (m.createPort owner).2.portOwner p = if p = m.nextPortId then some owner else m.portOwner p := by
  unfold portOwner
  show ((m.ports.insert m.nextPortId (PortState.new m.nextPortId owner)).lookup p).map _ = _
  by_cases hp : p = m.nextPortId
  · subst hp
    simp [Finmap.lookup_insert, PortState.new]
  · simp [Finmap.lookup_insert_of_ne _ hp, hp]

/-- A wait changes no owner. -/
theorem portOwner_blockRecv (portId : PortId) (caller : ThreadId) (priority : ThreadPriority)
    (deadline : Option UInt64) :
    (m.blockRecv portId caller priority deadline).2.portOwner = m.portOwner := by
  rcases blockRecv_cases portId caller priority deadline with
    ⟨e, he⟩ | ⟨port, hport, -, -, he⟩ <;> rw [he]
  exact portOwner_setPort hport rfl

/-- A port's state replaced by one with the same owner. -/
theorem shrinks_setPort {portId : PortId} {port port' : PortState}
    (hport : m.ports.lookup portId = some port) (howner : port'.owner = port.owner) :
    Shrinks m (m.setPort portId port') := by
  refine ⟨fun p o h => ?_, fun _ _ h => h, rfl⟩
  rwa [portOwner_setPort hport howner] at h

/-- A waiter removed. -/
theorem Shrinks.eraseWaiter (h : Shrinks m m') (t : ThreadId) :
    Shrinks m { m' with waitingThreads := m'.waitingThreads.erase t } := by
  refine ⟨h.owner, fun t' info hi => h.waiting t' info ?_, h.next⟩
  by_cases ht : t' = t
  · subst ht
    rw [show ({ m' with waitingThreads := m'.waitingThreads.erase t' } : IpcManager).waitingThreads =
      m'.waitingThreads.erase t' from rfl, Finmap.lookup_erase] at hi
    cases hi
  · rwa [show ({ m' with waitingThreads := m'.waitingThreads.erase t } : IpcManager).waitingThreads =
      m'.waitingThreads.erase t from rfl, Finmap.lookup_erase_ne ht] at hi

theorem send_shrinks (regionInfo : RegionId → Option Nat) (portId : PortId) (message : Message) :
    Shrinks m (m.send regionInfo portId message).2 := by
  rcases send_cases regionInfo portId message with ⟨e, he⟩ | ⟨port, _, hport, -, -, he⟩ <;> rw [he]
  · exact .refl m
  · apply shrinks_setPort hport
    rfl

theorem sendBatch_shrinks (regionInfo : RegionId → Option Nat) (portId : PortId)
    (messages : List Message) : Shrinks m (m.sendBatch regionInfo portId messages).2.1 := by
  rcases sendBatch_cases regionInfo portId messages with
    ⟨r, he⟩ | ⟨port, sizes, hport, -, -, ⟨-, he⟩ | ⟨receiverId, -, he⟩⟩ <;> rw [he]
  · exact .refl m
  · apply shrinks_setPort hport
    rfl
  -- the receiver woken leaves the waiters
  · refine Shrinks.eraseWaiter (shrinks_setPort hport ?_) receiverId
    rfl

theorem tryRecv_shrinks (regionInfo : RegionId → Option Nat) (portId : PortId) (caller : ThreadId) :
    Shrinks m (m.tryRecv regionInfo portId caller).2 := by
  rcases tryRecv_cases regionInfo portId caller with
    ⟨-, he⟩ | ⟨-, -, -, he⟩ | ⟨port, msg, rest, hport, -, ⟨e, -, he⟩ | ⟨size, -, he⟩⟩ <;> rw [he]
  · exact .refl m
  · exact .refl m
  · apply shrinks_setPort hport
    rfl
  · apply shrinks_setPort hport
    rfl

theorem recvBatch_shrinks (regionInfo : RegionId → Option Nat) (portId : PortId) (caller : ThreadId)
    (maxCount : Nat) : Shrinks m (m.recvBatch regionInfo portId caller maxCount).2 := by
  rcases recvBatch_cases regionInfo portId caller maxCount with ⟨-, he⟩ | ⟨port, hport, he⟩ <;> rw [he]
  · exact .refl m
  · apply shrinks_setPort hport
    rfl

theorem handleTimeouts_shrinks (currentTicks : UInt64) : Shrinks m (m.handleTimeouts currentTicks).2 := by
  refine ⟨fun p o h => ?_, fun t info h => lookup_waiting_handleTimeouts h, ?_⟩
  · unfold portOwner at h ⊢
    rwa [map_lookup_handleTimeouts PortState.owner (fun _ => rfl)] at h
  · unfold handleTimeouts
    dsimp only
    split_ifs <;> rfl

theorem closePort_shrinks (portId : PortId) (caller : ThreadId) : Shrinks m (m.closePort portId caller).2 := by
  rcases closePort_cases portId caller with ⟨e, he⟩ | ⟨-, -, -, he⟩ <;> rw [he]
  · exact .refl m
  · refine ⟨fun p o h => ?_, fun _ _ h => h, rfl⟩
    by_cases hp : p = portId
    · subst hp
      simp [portOwner, Finmap.lookup_erase] at h
    · simpa [portOwner, Finmap.lookup_erase_ne hp] using h

/-! ### The invariant -/

/-- **The waits-for graph has no cycle**; every port and every port a waiter names is below the
counter, so a new port has no waiter yet. -/
structure GraphInv (m : IpcManager) : Prop where
  acyclic : Chain.Acyclic m.waitsFor
  portsBelow : ∀ p o, m.portOwner p = some o → p < m.nextPortId
  waitersBelow : ∀ t info, m.waitingThreads.lookup t = some info → info.port < m.nextPortId

theorem graphInv_new : GraphInv IpcManager.new := by
  refine ⟨fun x hx => ?_, fun p o h => ?_, fun t info h => ?_⟩
  · obtain ⟨z, hz, -⟩ := TransGen.head'_iff.mp hx
    simp [Chain.Edge, waitsFor, IpcManager.new, Finmap.lookup_empty] at hz
  · simp [portOwner, IpcManager.new, Finmap.lookup_empty] at h
  · simp [IpcManager.new, Finmap.lookup_empty] at h

theorem GraphInv.shrink (h : GraphInv m) (hs : Shrinks m m') : GraphInv m' := by
  refine ⟨h.acyclic.mono fun _ _ hw => hs.waitsFor hw, fun p o ho => ?_, fun t info hi => ?_⟩
  · rw [hs.next]
    exact h.portsBelow p o (hs.owner p o ho)
  · rw [hs.next]
    exact h.waitersBelow t info (hs.waiting t info hi)

/-- A new port has no waiter, so the graph does not change. -/
theorem GraphInv.createPort (h : GraphInv m) (owner : ThreadId) : GraphInv (m.createPort owner).2 := by
  have hnext : (m.createPort owner).2.nextPortId = m.nextPortId + 1 := rfl
  have howner := portOwner_createPort (m := m) owner
  have hgraph : (m.createPort owner).2.waitsFor = m.waitsFor := by
    funext t
    unfold IpcManager.waitsFor
    show (m.waitingThreads.lookup t).bind _ = _
    cases hi : m.waitingThreads.lookup t with
    | none => rfl
    | some info =>
        simp only [Option.bind_some, howner, if_neg (Nat.ne_of_lt (h.waitersBelow t info hi))]
  refine ⟨hgraph ▸ h.acyclic, fun p o ho => ?_, fun t info hi => ?_⟩
  · rw [howner] at ho
    rw [hnext]
    split_ifs at ho with hp
    · rw [hp]
      exact Nat.lt_succ_self _
    · exact Nat.lt_succ_of_lt (h.portsBelow p o ho)
  · rw [hnext]
    exact Nat.lt_succ_of_lt (h.waitersBelow t info hi)

/-- A wait the check lets through adds an edge to a thread that does not reach the caller. -/
theorem GraphInv.blockRecv (h : GraphInv m) (portId : PortId) (caller : ThreadId)
    (priority : ThreadPriority) (deadline : Option UInt64) :
    GraphInv (m.blockRecv portId caller priority deadline).2 := by
  rcases blockRecv_cases portId caller priority deadline with
    ⟨e, he⟩ | ⟨port, hport, hd, -, he⟩ <;> rw [he]
  · exact h
  set port' : PortState := { port with
    receiverBlocked := some caller
    maxWaiterPriority := some ((port.maxWaiterPriority.map fun p => p.max priority).getD priority) }
  have howner : { m.setPort portId port' with
      waitingThreads := m.waitingThreads.insert caller ⟨portId, deadline⟩ }.portOwner = m.portOwner := by
    simpa only [he] using portOwner_blockRecv (m := m) portId caller priority deadline
  have hin : m.portOwner portId = some port.owner := by simp [portOwner, hport]
  have hgraph : { m.setPort portId port' with
      waitingThreads := m.waitingThreads.insert caller ⟨portId, deadline⟩ }.waitsFor =
      Function.update m.waitsFor caller (some port.owner) := by
    funext t
    unfold IpcManager.waitsFor
    rw [howner]
    by_cases ht : t = caller
    · subst ht
      simp [Finmap.lookup_insert, hin]
    · simp [Finmap.lookup_insert_of_ne _ ht, Function.update_of_ne ht]
  -- the owner does not reach the caller, or the check would have refused
  have hfree : ¬ ReflTransGen (Chain.Edge m.waitsFor) port.owner caller := by
    intro hr
    have := (detectDeadlock_iff caller portId).mpr ⟨port.owner, hin, hr⟩
    rw [hd] at this
    cases this
  refine ⟨hgraph ▸ h.acyclic.update hfree, fun p o ho => ?_, fun t info hi => ?_⟩
  · rw [howner] at ho
    exact h.portsBelow p o ho
  · by_cases ht : t = caller
    · subst ht
      simp only [Finmap.lookup_insert, Option.some.injEq] at hi
      subst hi
      exact h.portsBelow portId port.owner hin
    · change (m.waitingThreads.insert caller ⟨portId, deadline⟩).lookup t = some info at hi
      rw [Finmap.lookup_insert_of_ne _ ht] at hi
      exact h.waitersBelow t info hi

end IpcManager

namespace IpcSys

variable {s : IpcSys}

theorem graphInv_apply (h : s.ipc.GraphInv) (c : IpcCall) : (s.apply c).ipc.GraphInv := by
  cases c with
  | createPort owner => exact h.createPort owner
  | closePort portId caller => exact h.shrink (IpcManager.closePort_shrinks portId caller)
  | send portId message => exact h.shrink (IpcManager.send_shrinks _ portId message)
  | sendBatch portId messages => exact h.shrink (IpcManager.sendBatch_shrinks _ portId messages)
  | tryRecv portId caller => exact h.shrink (IpcManager.tryRecv_shrinks _ portId caller)
  | recvBatch portId caller maxCount =>
      exact h.shrink (IpcManager.recvBatch_shrinks _ portId caller maxCount)
  | blockRecv portId caller priority deadline => exact h.blockRecv portId caller priority deadline
  | handleTimeouts currentTicks => exact h.shrink (IpcManager.handleTimeouts_shrinks currentTicks)
  | createRegion => exact h
  | destroyRegion => exact h

theorem graphInv_of_reachable (hs : s.IsReachable) : s.ipc.GraphInv :=
  hs.induct (P := fun s => s.ipc.GraphInv) IpcManager.graphInv_new (by
    rintro s c _ h rfl
    exact graphInv_apply h c)

/-- **No circular IPC wait**: in every reachable state the waits-for graph has no cycle, and
`block_recv` answers `DeadlockDetected` exactly when the caller's wait on an existing port would
close a cycle through the caller. -/
theorem noCircularWait (hs : s.IsReachable) :
    Chain.Acyclic s.ipc.waitsFor ∧
      ∀ portId caller priority deadline,
        (s.ipc.blockRecv portId caller priority deadline).1 = .error .deadlockDetected ↔
          portId ∈ s.ipc.ports ∧
            TransGen (Chain.Edge (Function.update s.ipc.waitsFor caller (s.ipc.portOwner portId)))
              caller caller :=
  ⟨(graphInv_of_reachable hs).acyclic, fun portId caller priority deadline =>
    IpcManager.blockRecv_deadlock_iff portId caller priority deadline⟩

/-- In `blockedThenSent` thread 2 waits for thread 1, the owner of port 1. -/
theorem noCircularWait_blockedThenSent :
    blockedThenSent.IsReachable ∧ blockedThenSent.ipc.waitsFor 2 = some 1 ∧
    Chain.Acyclic blockedThenSent.ipc.waitsFor ∧
      ∀ portId caller priority deadline,
        (blockedThenSent.ipc.blockRecv portId caller priority deadline).1 = .error .deadlockDetected ↔
          portId ∈ blockedThenSent.ipc.ports ∧
            TransGen (Chain.Edge (Function.update blockedThenSent.ipc.waitsFor caller
              (blockedThenSent.ipc.portOwner portId))) caller caller :=
  ⟨Reachable.init.run _, by decide, noCircularWait (Reachable.init.run _)⟩

end IpcSys

end Atom
