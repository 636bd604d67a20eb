import Atom.Lib.Queues
import Atom.Kernel.Thread.List

/-!
# Scheduler — the ready queues and the scheduler

`kernel/src/sched.rs`: one FIFO ready queue per priority level, the base and effective
priority of each thread, the running thread and the idle thread.  The scheduler reaches the
thread list only through `thread::add_thread` and `thread::set_thread_state`; `SchedSys` is the
scheduler together with that list.

* `popNext_cases`: `pop_next` takes the front of the highest non-empty queue and pushes it
  back at the end of the same queue, so it never removes an entry (`total_popNext`,
  `count_popNext`).
* `tickQueues_cases`: the three ways a timer tick goes, by the running thread and the queues.
-/

namespace Atom

open Lib

/-- `PRIORITY_LEVELS`. -/
def PRIORITY_LEVELS : Nat := 4

/-- `ReadyQueues`: a FIFO queue of thread ids per priority level. -/
structure ReadyQueues where
  queues : Fin PRIORITY_LEVELS → List ThreadId

namespace ReadyQueues

/-- `ReadyQueues::new`. -/
def new : ReadyQueues := ⟨fun _ => []⟩

/-- `ReadyQueues::push`: at the back of the queue of the priority's level. -/
def push (q : ReadyQueues) (id : ThreadId) (priority : ThreadPriority) : ReadyQueues :=
  if h : priority.toNat < PRIORITY_LEVELS then ⟨Queues.enqueue q.queues ⟨priority.toNat, h⟩ id⟩
  else q

/-- The loop of `pop_next` over the levels `idxs` still to look at: the front of the first
non-empty queue is popped and pushed back at its end. -/
def popNextFrom (q : ReadyQueues) : List (Fin PRIORITY_LEVELS) → Option ThreadId × ReadyQueues
  | [] => (none, q)
  | idx :: idxs =>
      match Queues.dequeue q.queues idx with
      | (some id, queues) => (some id, ⟨Queues.enqueue queues idx id⟩)
      | (none, _) => q.popNextFrom idxs

/-- `ReadyQueues::pop_next`: the levels from the highest down. -/
def popNext (q : ReadyQueues) : Option ThreadId × ReadyQueues :=
  q.popNextFrom (List.finRange PRIORITY_LEVELS).reverse

/-- `ReadyQueues::is_empty`. -/
def isEmpty (q : ReadyQueues) : Bool :=
  (List.finRange PRIORITY_LEVELS).all fun i => (q.queues i).isEmpty

/-- The number of entries over all the queues. -/
def total (q : ReadyQueues) : Nat := Queues.total q.queues

/-- How often `id` is queued, over all the queues. -/
def count (q : ReadyQueues) (id : ThreadId) : Nat := Queues.count q.queues id

end ReadyQueues

/-- `BTreeMap<ThreadId, ThreadPriority>`. -/
abbrev PriorityMap := Finmap fun _ : ThreadId => ThreadPriority

/-- `Scheduler`. -/
structure Scheduler where
  ready : ReadyQueues
  basePriorities : PriorityMap
  effectivePriorities : PriorityMap
  current : Option ThreadId
  idle : Option ThreadId
  initialized : Bool

namespace Scheduler

/-- `Scheduler::new`. -/
def new : Scheduler := ⟨ReadyQueues.new, ∅, ∅, none, none, false⟩

/-- `Scheduler::idle_id`. -/
def idleId (sch : Scheduler) : Option ThreadId := sch.idle

/-- `Scheduler::current_thread`. -/
def currentThread (sch : Scheduler) : Option ThreadId := sch.current

/-- `Scheduler::get_priority`: the effective priority, `Normal` for a thread without one. -/
def getPriority (sch : Scheduler) (id : ThreadId) : ThreadPriority :=
  (sch.effectivePriorities.lookup id).getD .normal

/-- `Scheduler::get_base_priority`. -/
def getBasePriority (sch : Scheduler) (id : ThreadId) : ThreadPriority :=
  (sch.basePriorities.lookup id).getD .normal

/-- `Scheduler::boost_priority`: raises the effective priority only; the ready queues are not
touched. -/
def boostPriority (sch : Scheduler) (id : ThreadId) (newPriority : ThreadPriority) :
    Bool × Scheduler :=
  let current := (sch.effectivePriorities.lookup id).getD .normal
  if current < newPriority then
    (true, { sch with effectivePriorities := sch.effectivePriorities.insert id newPriority })
  else (false, sch)

/-- `Scheduler::restore_original_priority`. -/
def restoreOriginalPriority (sch : Scheduler) (id : ThreadId) : Scheduler :=
  { sch with effectivePriorities := sch.effectivePriorities.insert id (sch.getBasePriority id) }

end Scheduler

/-- The scheduler and the thread list (`THREAD_LIST`) whose states it sets. -/
structure SchedSys where
  sched : Scheduler
  threads : ThreadList

namespace SchedSys

/-- `thread::set_thread_state`. -/
def setThreadState (s : SchedSys) (id : ThreadId) (state : ThreadState) : SchedSys :=
  { s with threads := (s.threads.setState id state).2 }

/-- The state of thread `id`, if the list has it. -/
def stateOf (s : SchedSys) (id : ThreadId) : Option ThreadState :=
  (s.threads.lookup id).map Thread.state

/-- `Scheduler::init`: the idle thread joins the list and runs. -/
def init (s : SchedSys) (idleThread : Thread) : ThreadId × SchedSys :=
  let idleId := idleThread.id
  let s₁ : SchedSys :=
    ⟨{ s.sched with
        idle := some idleId
        current := some idleId
        basePriorities := s.sched.basePriorities.insert idleId .idle
        effectivePriorities := s.sched.effectivePriorities.insert idleId .idle },
      s.threads.add idleThread⟩
  let s₂ := s₁.setThreadState idleId .running
  (idleId, { s₂ with sched := { s₂.sched with initialized := true } })

/-- `Scheduler::add_thread`: a thread that is `Ready` is queued at its priority. -/
def addThread (s : SchedSys) (thread : Thread) : ThreadId × SchedSys :=
  let id := thread.id
  let priority := thread.priority
  let sch : Scheduler :=
    { s.sched with
      basePriorities := s.sched.basePriorities.insert id priority
      effectivePriorities := s.sched.effectivePriorities.insert id priority }
  let ready := if thread.state = .ready then sch.ready.push id priority else sch.ready
  (id, ⟨{ sch with ready }, s.threads.add thread⟩)

/-- The first half of `Scheduler::apply_switch_with_previous`: a previous thread that is not the
chosen one is set `Ready`, whatever its state. -/
def releasePrevious (s : SchedSys) (previous chosen : Option ThreadId) : SchedSys :=
  match previous with
  | some prev => if some prev ≠ chosen then s.setThreadState prev .ready else s
  | none => s

/-- `Scheduler::apply_switch_with_previous`: the choice is `next`, else `previous`, else the
idle thread; the chosen thread is set `Running` and becomes the current one. -/
def applySwitchWithPrevious (s : SchedSys) (previous next : Option ThreadId) :
    Option ThreadId × SchedSys :=
  let chosen := (next.or previous).or s.sched.idleId
  let s₁ := s.releasePrevious previous chosen
  match chosen with
  | some id =>
      let s₂ := s₁.setThreadState id .running
      (some id, { s₂ with sched := { s₂.sched with current := some id } })
  | none => (none, s₁)

/-- `Scheduler::apply_switch`. -/
def applySwitch (s : SchedSys) (next : Option ThreadId) : Option ThreadId × SchedSys :=
  s.applySwitchWithPrevious s.sched.currentThread next

/-- `Scheduler::schedule`. -/
def schedule (s : SchedSys) : Option ThreadId × SchedSys :=
  if !s.sched.initialized then (none, s)
  else
    let (next, ready) := s.sched.ready.popNext
    ({ s with sched := { s.sched with ready } } : SchedSys).applySwitch next

/-- The block of `on_timer_tick` that holds the `ready` and `current` locks: the running thread
is requeued at its effective priority unless the queues are empty, and then, if no thread is
left current, the next one is popped.  It returns `previous`, `next`, the queues and the
current thread. -/
def tickQueues (sch : Scheduler) :
    Option ThreadId × Option ThreadId × ReadyQueues × Option ThreadId :=
  let (previous, ready, current) : Option ThreadId × ReadyQueues × Option ThreadId :=
    match sch.current with
    | some cur =>
        if !sch.ready.isEmpty then (some cur, sch.ready.push cur (sch.getPriority cur), none)
        else (some cur, sch.ready, some cur)
    | none => (none, sch.ready, none)
  let (next, ready) := if current.isNone then ready.popNext else (none, ready)
  (previous, next, ready, current)

/-- `Scheduler::on_timer_tick`: the previous thread and the chosen one. -/
def onTimerTick (s : SchedSys) : (Option ThreadId × Option ThreadId) × SchedSys :=
  if !s.sched.initialized then ((none, none), s)
  else
    let (previous, next, ready, current) := tickQueues s.sched
    let (chosen, s') :=
      ({ s with sched := { s.sched with ready, current } } : SchedSys).applySwitchWithPrevious
        previous next
    ((previous, chosen), s')

/-- `Scheduler::mark_ready`: the thread is set `Ready` and queued at its effective priority,
whatever its state was. -/
def markReady (s : SchedSys) (id : ThreadId) : SchedSys :=
  let priority := s.sched.getPriority id
  let s₁ := s.setThreadState id .ready
  { s₁ with sched := { s₁.sched with ready := s₁.sched.ready.push id priority } }

end SchedSys

/-! ### The ready queues -/

namespace ReadyQueues

variable {q : ReadyQueues}

theorem push_eq (q : ReadyQueues) (id : ThreadId) (priority : ThreadPriority) :
    q.push id priority = ⟨Queues.enqueue q.queues ⟨priority.toNat, priority.toNat_lt_four⟩ id⟩ :=
  dif_pos priority.toNat_lt_four

@[simp] theorem total_push (id : ThreadId) (priority : ThreadPriority) :
    (q.push id priority).total = q.total + 1 := by
  simp [push_eq, total]

@[simp] theorem count_push (id : ThreadId) (priority : ThreadPriority) (b : ThreadId) :
    (q.push id priority).count b = q.count b + if id = b then 1 else 0 := by
  simp [push_eq, count]

theorem isEmpty_iff : q.isEmpty = true ↔ ∀ i, q.queues i = [] := by
  simp [isEmpty, List.isEmpty_iff]

theorem isEmpty_iff_total : q.isEmpty = true ↔ q.total = 0 := by
  rw [isEmpty_iff, total, Queues.total_eq_zero]

/-- The loop of `pop_next` over levels in decreasing order, when every level above the ones
still to look at is empty. -/
theorem popNextFrom_cases (q : ReadyQueues) :
    ∀ idxs : List (Fin PRIORITY_LEVELS), idxs.Pairwise (· > ·) →
      (∀ j, j ∉ idxs → ∀ k ∈ idxs, k < j → q.queues j = []) →
      (q.popNextFrom idxs = (none, q) ∧ ∀ j ∈ idxs, q.queues j = []) ∨
      ∃ idx id rest, q.queues idx = id :: rest ∧ (∀ j, idx < j → q.queues j = []) ∧
        q.popNextFrom idxs =
          (some id, ⟨Queues.enqueue (Function.update q.queues idx rest) idx id⟩)
  | [], _, _ => .inl ⟨rfl, fun _ h => absurd h List.not_mem_nil⟩
  | idx :: idxs, hsorted, habove => by
      obtain ⟨hlt, hsorted'⟩ := List.pairwise_cons.mp hsorted
      cases hq : q.queues idx with
      | cons id rest =>
          -- the first non-empty level: every level above it is above all the levels looked at
          refine .inr ⟨idx, id, rest, hq, fun j hj => ?_, ?_⟩
          · by_cases hm : j ∈ idx :: idxs
            · rcases List.mem_cons.mp hm with rfl | hm
              · exact absurd hj (lt_irrefl _)
              · exact absurd (hlt j hm) (not_lt.mpr hj.le)
            · exact habove j hm idx List.mem_cons_self hj
          · have hd : Queues.dequeue q.queues idx = (some id, Function.update q.queues idx rest) :=
              Queues.dequeue_eq_some.mpr ⟨rest, hq, rfl⟩
            simp only [popNextFrom, hd]
      | nil =>
          have hd : Queues.dequeue q.queues idx = (none, q.queues) := Queues.dequeue_of_nil hq
          have hrec : q.popNextFrom (idx :: idxs) = q.popNextFrom idxs := by
            simp only [popNextFrom, hd]
          have habove' : ∀ j, j ∉ idxs → ∀ k ∈ idxs, k < j → q.queues j = [] := by
            intro j hj k hk hkj
            by_cases hji : j = idx
            · exact hji ▸ hq
            · exact habove j (by simp [hji, hj]) k (List.mem_cons_of_mem _ hk) hkj
          rw [hrec]
          rcases popNextFrom_cases q idxs hsorted' habove' with ⟨hn, hall⟩ | h
          · refine .inl ⟨hn, fun j hj => ?_⟩
            rcases List.mem_cons.mp hj with rfl | hj
            · exact hq
            · exact hall j hj
          · exact .inr h

/-- **`pop_next`**: with every queue empty it finds nothing; otherwise it takes the front of
the highest non-empty queue and pushes it back at the end of that queue. -/
theorem popNext_cases (q : ReadyQueues) :
    (q.isEmpty = true ∧ q.popNext = (none, q)) ∨
    ∃ idx id rest, q.queues idx = id :: rest ∧ (∀ j, idx < j → q.queues j = []) ∧
      q.popNext = (some id, ⟨Queues.enqueue (Function.update q.queues idx rest) idx id⟩) := by
  have hsorted : (List.finRange PRIORITY_LEVELS).reverse.Pairwise (· > ·) :=
    List.pairwise_reverse.mpr (List.pairwise_lt_finRange _)
  have hall : ∀ j, j ∉ (List.finRange PRIORITY_LEVELS).reverse →
      ∀ k ∈ (List.finRange PRIORITY_LEVELS).reverse, k < j → q.queues j = [] :=
    fun j hj => absurd (List.mem_reverse.mpr (List.mem_finRange j)) hj
  rcases popNextFrom_cases q _ hsorted hall with ⟨hn, hempty⟩ | h
  · exact .inl ⟨isEmpty_iff.mpr fun j => hempty j (List.mem_reverse.mpr (List.mem_finRange j)), hn⟩
  · exact .inr h

/-- What `pop_next` pops it pushes back: no entry is lost. -/
theorem total_popNext (q : ReadyQueues) : q.popNext.2.total = q.total := by
  rcases popNext_cases q with ⟨-, h⟩ | ⟨idx, id, rest, hq, -, h⟩
  · rw [h]
  · have hd : Queues.dequeue q.queues idx = (some id, Function.update q.queues idx rest) :=
      Queues.dequeue_eq_some.mpr ⟨rest, hq, rfl⟩
    have := Queues.total_dequeue hd
    rw [h]
    simp only [total, Queues.total_enqueue]
    exact this

theorem count_popNext (q : ReadyQueues) (b : ThreadId) : q.popNext.2.count b = q.count b := by
  rcases popNext_cases q with ⟨-, h⟩ | ⟨idx, id, rest, hq, -, h⟩
  · rw [h]
  · have hd : Queues.dequeue q.queues idx = (some id, Function.update q.queues idx rest) :=
      Queues.dequeue_eq_some.mpr ⟨rest, hq, rfl⟩
    have := Queues.count_dequeue hd b
    rw [h]
    simp only [count, Queues.count_enqueue]
    exact this

end ReadyQueues

/-! ### The thread list under the scheduler -/

namespace SchedSys

variable {s : SchedSys}

@[simp] theorem setThreadState_sched (id : ThreadId) (state : ThreadState) :
    (s.setThreadState id state).sched = s.sched := rfl

theorem stateOf_setThreadState (id id' : ThreadId) (state : ThreadState) :
    (s.setThreadState id state).stateOf id' =
      if id' = id then (s.stateOf id).map fun _ => state else s.stateOf id' := by
  unfold stateOf setThreadState
  rw [ThreadList.lookup_setState]
  split_ifs <;> simp [Option.map_map, Function.comp_def]

/-- An observation of a thread that does not read its state: what the scheduler's calls keep. -/
def StateBlind {β : Type*} (f : Thread → β) : Prop := ∀ t state, f { t with state } = f t

theorem stateBlind_const {β : Type*} (b : β) : StateBlind fun _ => b := fun _ _ => rfl

variable {β : Type*} {f : Thread → β}

theorem map_setThreadState (hf : StateBlind f) (id : ThreadId) (state : ThreadState) :
    (s.setThreadState id state).threads.map f = s.threads.map f :=
  Lib.KeyedList.map_update (fun t => hf t state) s.threads id

/-! ### Adding and waking a thread -/

theorem addThread_sched (thread : Thread) :
    (s.addThread thread).2.sched =
      { s.sched with
        ready := if thread.state = .ready then s.sched.ready.push thread.id thread.priority
          else s.sched.ready
        basePriorities := s.sched.basePriorities.insert thread.id thread.priority
        effectivePriorities := s.sched.effectivePriorities.insert thread.id thread.priority } :=
  rfl

@[simp] theorem addThread_threads (thread : Thread) :
    (s.addThread thread).2.threads = s.threads.add thread := rfl

theorem markReady_sched (id : ThreadId) :
    (s.markReady id).sched =
      { s.sched with ready := s.sched.ready.push id (s.sched.getPriority id) } := rfl

@[simp] theorem markReady_threads (id : ThreadId) :
    (s.markReady id).threads = (s.setThreadState id .ready).threads := rfl

/-! ### A switch -/

@[simp] theorem releasePrevious_sched (previous chosen : Option ThreadId) :
    (s.releasePrevious previous chosen).sched = s.sched := by
  unfold releasePrevious
  split
  · split_ifs <;> rfl
  · rfl

theorem stateOf_releasePrevious (previous chosen : Option ThreadId) (id : ThreadId) :
    (s.releasePrevious previous chosen).stateOf id =
      if previous = some id ∧ chosen ≠ some id then (s.stateOf id).map fun _ => .ready
      else s.stateOf id := by
  cases previous with
  | none => simp [releasePrevious]
  | some p =>
      unfold releasePrevious
      by_cases hpc : some p = chosen
      · subst hpc
        simp
      · simp only [ne_eq, hpc, not_false_eq_true, if_true]
        rw [stateOf_setThreadState]
        by_cases hid : id = p
        · subst hid
          simp [Ne.symm hpc]
        · simp [hid, Ne.symm hid]

theorem applySwitchWithPrevious_fst (previous next : Option ThreadId) :
    (s.applySwitchWithPrevious previous next).1 = (next.or previous).or s.sched.idle := by
  unfold applySwitchWithPrevious
  dsimp only [Scheduler.idleId]
  generalize (next.or previous).or s.sched.idle = chosen
  cases chosen <;> rfl

/-- The scheduler after a switch: only the current thread changes, to the chosen one. -/
theorem applySwitchWithPrevious_sched (previous next : Option ThreadId) :
    (s.applySwitchWithPrevious previous next).2.sched =
      match (next.or previous).or s.sched.idle with
      | some id => { s.sched with current := some id }
      | none => s.sched := by
  unfold applySwitchWithPrevious
  dsimp only [Scheduler.idleId]
  generalize (next.or previous).or s.sched.idle = chosen
  cases chosen <;> simp

/-- The thread states after a switch: the chosen thread runs, a previous thread that was not
chosen is ready, every other thread keeps its state. -/
theorem stateOf_applySwitchWithPrevious (previous next : Option ThreadId) (id : ThreadId) :
    (s.applySwitchWithPrevious previous next).2.stateOf id =
      if (next.or previous).or s.sched.idle = some id then (s.stateOf id).map fun _ => .running
      else if previous = some id then (s.stateOf id).map fun _ => .ready
      else s.stateOf id := by
  unfold applySwitchWithPrevious
  dsimp only [Scheduler.idleId]
  generalize (next.or previous).or s.sched.idle = chosen
  cases chosen with
  | none => simp [stateOf_releasePrevious]
  | some c =>
      show ((s.releasePrevious previous (some c)).setThreadState c .running).stateOf id = _
      rw [stateOf_setThreadState, stateOf_releasePrevious, stateOf_releasePrevious]
      by_cases hid : id = c
      · subst hid
        simp
      · simp [hid, Ne.symm hid]

theorem map_releasePrevious (hf : StateBlind f) (previous chosen : Option ThreadId) :
    (s.releasePrevious previous chosen).threads.map f = s.threads.map f := by
  unfold releasePrevious
  split
  · split_ifs
    · exact map_setThreadState hf _ _
    · rfl
  · rfl

theorem map_applySwitchWithPrevious (hf : StateBlind f) (previous next : Option ThreadId) :
    (s.applySwitchWithPrevious previous next).2.threads.map f = s.threads.map f := by
  unfold applySwitchWithPrevious
  dsimp only [Scheduler.idleId]
  generalize (next.or previous).or s.sched.idle = chosen
  cases chosen with
  | none => exact map_releasePrevious hf previous none
  | some c =>
      show ((s.releasePrevious previous (some c)).setThreadState c .running).threads.map f = _
      rw [map_setThreadState hf, map_releasePrevious hf]

/-! ### A timer tick -/

/-- **A timer tick, in its three cases.**  With a running thread and queued threads, the running
thread is requeued and the popped one chosen; with a running thread and empty queues, the running
thread is chosen again; with no running thread, the popped thread, else the idle thread. -/
theorem tickQueues_cases (sch : Scheduler) :
    (∃ cur, sch.current = some cur ∧ sch.ready.isEmpty = false ∧
      tickQueues sch = (some cur, ((sch.ready.push cur (sch.getPriority cur)).popNext).1,
        ((sch.ready.push cur (sch.getPriority cur)).popNext).2, none)) ∨
    (∃ cur, sch.current = some cur ∧ sch.ready.isEmpty = true ∧
      tickQueues sch = (some cur, none, sch.ready, some cur)) ∨
    (sch.current = none ∧ tickQueues sch = (none, sch.ready.popNext.1, sch.ready.popNext.2, none)) := by
  unfold tickQueues
  cases hc : sch.current with
  | none => exact .inr (.inr ⟨rfl, rfl⟩)
  | some cur =>
      cases he : sch.ready.isEmpty with
      | false => exact .inl ⟨cur, rfl, rfl, by simp⟩
      | true => exact .inr (.inl ⟨cur, rfl, rfl, by simp⟩)

theorem onTimerTick_of_initialized (h : s.sched.initialized = true) :
    s.onTimerTick =
      let t := tickQueues s.sched
      let r := ({ s with sched := { s.sched with ready := t.2.2.1, current := t.2.2.2 } } :
        SchedSys).applySwitchWithPrevious t.1 t.2.1
      ((t.1, r.1), r.2) := by
  simp [onTimerTick, h]

/-- With the idle thread set, a tick of an initialized scheduler always chooses a thread, which
becomes the current one; the queues are those `tickQueues` leaves. -/
theorem onTimerTick_sched {idle : ThreadId} (hi : s.sched.initialized = true)
    (hidle : s.sched.idle = some idle) :
    ∃ c, s.onTimerTick.1.2 = some c ∧
      s.onTimerTick.2.sched = { s.sched with ready := (tickQueues s.sched).2.2.1, current := some c } := by
  rw [onTimerTick_of_initialized hi]
  dsimp only
  rw [applySwitchWithPrevious_fst, applySwitchWithPrevious_sched]
  dsimp only
  rw [hidle]
  cases (tickQueues s.sched).2.1.or (tickQueues s.sched).1 with
  | none => exact ⟨idle, rfl, rfl⟩
  | some c => exact ⟨c, rfl, rfl⟩

/-- The same for `schedule`: the queues are those `pop_next` leaves. -/
theorem schedule_sched {idle : ThreadId} (hi : s.sched.initialized = true)
    (hidle : s.sched.idle = some idle) :
    ∃ c, s.schedule.1 = some c ∧
      s.schedule.2.sched = { s.sched with ready := s.sched.ready.popNext.2, current := some c } := by
  simp only [schedule, hi, Bool.not_true, Bool.false_eq_true, if_false, applySwitch,
    Scheduler.currentThread]
  rw [applySwitchWithPrevious_fst, applySwitchWithPrevious_sched]
  dsimp only
  rw [hidle]
  cases s.sched.ready.popNext.1.or s.sched.current with
  | none => exact ⟨idle, rfl, rfl⟩
  | some c => exact ⟨c, rfl, rfl⟩

/-- A tick changes the states of threads and nothing else of them. -/
theorem map_onTimerTick (hf : StateBlind f) : s.onTimerTick.2.threads.map f = s.threads.map f := by
  unfold onTimerTick
  split
  · rfl
  · exact map_applySwitchWithPrevious hf _ _

@[simp] theorem length_onTimerTick : s.onTimerTick.2.threads.length = s.threads.length := by
  simpa using congrArg List.length (map_onTimerTick (s := s) (stateBlind_const ()))

end SchedSys

/-! ### The priority maps -/

namespace Scheduler

/-- The priorities the maps hold: `Normal`, or `Idle` for the idle thread. -/
def PrioritiesOk (sch : Scheduler) : Prop :=
  ∀ x q, (sch.basePriorities.lookup x = some q ∨ sch.effectivePriorities.lookup x = some q) →
    q = .normal ∨ (q = .idle ∧ sch.idle = some x)

variable {sch : Scheduler}

/-- A thread other than the idle thread runs at `Normal`. -/
theorem PrioritiesOk.getPriority_normal (h : sch.PrioritiesOk) {x : ThreadId}
    (hx : sch.idle ≠ some x) : sch.getPriority x = .normal := by
  unfold Scheduler.getPriority
  cases hq : sch.effectivePriorities.lookup x with
  | none => rfl
  | some q =>
      rcases h x q (.inr hq) with rfl | ⟨-, hidle⟩
      · rfl
      · exact absurd hidle hx

theorem PrioritiesOk.getPriority_le (h : sch.PrioritiesOk) (x : ThreadId) :
    (sch.getPriority x).toNat ≤ ThreadPriority.normal.toNat := by
  unfold Scheduler.getPriority
  cases hq : sch.effectivePriorities.lookup x with
  | none => exact Nat.le_refl _
  | some q => rcases h x q (.inr hq) with rfl | ⟨rfl, -⟩ <;> decide

/-- Only the two maps and the idle thread matter. -/
theorem PrioritiesOk.of_eq (h : sch.PrioritiesOk) {sch' : Scheduler}
    (hb : sch'.basePriorities = sch.basePriorities)
    (he : sch'.effectivePriorities = sch.effectivePriorities) (hi : sch'.idle = sch.idle) :
    sch'.PrioritiesOk := by
  intro x q hq
  rw [hb, he] at hq
  rw [hi]
  exact h x q hq

/-- Restoring a thread's base priority writes a priority the maps already allow. -/
theorem PrioritiesOk.restoreOriginalPriority (h : sch.PrioritiesOk) (id : ThreadId) :
    (sch.restoreOriginalPriority id).PrioritiesOk := by
  intro x q hq
  unfold Scheduler.restoreOriginalPriority at hq
  rcases hq with hq | hq
  · exact h x q (.inl hq)
  by_cases hx : x = id
  · subst hx
    rw [Finmap.lookup_insert, Option.some.injEq] at hq
    subst hq
    unfold Scheduler.getBasePriority
    cases hb : sch.basePriorities.lookup x with
    | none => exact .inl rfl
    | some q' => exact h x q' (.inl hb)
  · rw [Finmap.lookup_insert_of_ne _ hx] at hq
    exact h x q (.inr hq)

end Scheduler

namespace SchedSys

variable {s : SchedSys}

/-- A tick moves the queues and the current thread, and keeps the priority maps and the idle
thread. -/
theorem onTimerTick_priorities (s : SchedSys) :
    s.onTimerTick.2.sched.basePriorities = s.sched.basePriorities ∧
      s.onTimerTick.2.sched.effectivePriorities = s.sched.effectivePriorities ∧
      s.onTimerTick.2.sched.idle = s.sched.idle := by
  by_cases hi : s.sched.initialized = true
  · rw [onTimerTick_of_initialized hi]
    dsimp only
    rw [applySwitchWithPrevious_sched]
    split <;> exact ⟨rfl, rfl, rfl⟩
  · have hs : s.onTimerTick = ((none, none), s) := by simp [onTimerTick, hi]
    rw [hs]
    exact ⟨rfl, rfl, rfl⟩

theorem prioritiesOk_onTimerTick (h : s.sched.PrioritiesOk) : s.onTimerTick.2.sched.PrioritiesOk :=
  let ⟨hb, he, hi⟩ := onTimerTick_priorities s
  h.of_eq hb he hi

theorem prioritiesOk_markReady (h : s.sched.PrioritiesOk) (id : ThreadId) :
    (s.markReady id).sched.PrioritiesOk :=
  h.of_eq rfl rfl rfl

/-- A thread added at `Normal`, as `sys_thread_create` adds it. -/
theorem prioritiesOk_addThread (h : s.sched.PrioritiesOk) {thread : Thread}
    (hprio : thread.priority = .normal) : (s.addThread thread).2.sched.PrioritiesOk := by
  intro x q hq
  rw [addThread_sched] at hq
  dsimp only at hq
  by_cases hx : x = thread.id
  · subst hx
    rw [Finmap.lookup_insert, Finmap.lookup_insert, or_self, Option.some.injEq, hprio] at hq
    exact .inl hq.symm
  · rw [Finmap.lookup_insert_of_ne _ hx, Finmap.lookup_insert_of_ne _ hx] at hq
    rw [addThread_sched]
    exact h x q hq

/-- `Scheduler::init` on a scheduler with no idle thread yet. -/
theorem prioritiesOk_init (h : s.sched.PrioritiesOk) (hnone : s.sched.idle = none)
    (idleThread : Thread) : (s.init idleThread).2.sched.PrioritiesOk := by
  intro x q hq
  simp only [init, setThreadState_sched] at hq ⊢
  by_cases hx : x = idleThread.id
  · subst hx
    rw [Finmap.lookup_insert, Finmap.lookup_insert, or_self, Option.some.injEq] at hq
    exact .inr ⟨hq.symm, rfl⟩
  · rw [Finmap.lookup_insert_of_ne _ hx, Finmap.lookup_insert_of_ne _ hx] at hq
    -- with no idle thread before, every earlier entry is `Normal`
    rcases h x q hq with hn | ⟨-, hidle⟩
    · exact .inl hn
    · rw [hnone] at hidle
      cases hidle

end SchedSys

end Atom

