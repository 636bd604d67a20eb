import Atom.Lib.Reach
import Atom.Kernel.Sched.Scheduler

/-!
# Scheduler — the reachable states

The scheduler as a transition system: from `Scheduler::init` with an idle thread (`boot`), any
sequence of `add_thread` for a thread with a new id, `mark_ready` for a thread of the list,
`on_timer_tick`, `schedule`, and the state changes the blocking system calls and
`sys_thread_exit` make to the running thread before they tick (`setCurrentState`).

* `live_of_reachable`: every reachable scheduler is initialized, keeps its idle thread, and has
  a current thread.
* `count_le_of_run`: no step takes a thread off the ready queues: along any run, the number of
  times a thread is queued never decreases.
* `onTimerTick_total`: a tick with a running thread and a non-empty queue makes the queues one
  entry longer; `total_ticks` counts `n` ticks.
* `ready_overflow`: from every reachable state with a queued thread, enough ticks reach a state
  whose queues hold more entries than the list has threads.
* `stateOf_onTimerTick_chosen`: a tick sets the thread it chooses `Running`, whatever state the
  thread was in.
* `twoTicks_ready`: the idle thread, one thread added, and two ticks: the thread is queued twice.
  `onTimerTick_exitedFirst`: the thread exits, and the next tick chooses it and runs it again.
-/

namespace Atom

open Lib

namespace SchedSys

/-- The calls that change the scheduler. -/
inductive SchedCall where
  | addThread (thread : Thread)
  | markReady (id : ThreadId)
  | timerTick
  | schedule
  | setCurrentState (state : ThreadState)

/-- One call, from the state before it to the state after it. -/
inductive SchedStep : SchedSys → SchedCall → SchedSys → Prop where
  | addThread (s : SchedSys) (thread : Thread) (hfresh : s.threads.lookup thread.id = none) :
      SchedStep s (.addThread thread) (s.addThread thread).2
  | markReady (s : SchedSys) (id : ThreadId) (hmem : (s.threads.lookup id).isSome) :
      SchedStep s (.markReady id) (s.markReady id)
  | timerTick (s : SchedSys) : SchedStep s .timerTick s.onTimerTick.2
  | schedule (s : SchedSys) : SchedStep s .schedule s.schedule.2
  /-- `sys_thread_exit` sets the running thread `Exited`, `sys_thread_sleep`, `sys_ipc_recv` and
  `sys_ipc_wait_any` set it `Blocked`. -/
  | setCurrentState (s : SchedSys) (state : ThreadState) (hstate : state = .blocked ∨ state = .exited)
      (cur : ThreadId) (hcur : s.sched.current = some cur) :
      SchedStep s (.setCurrentState state) (s.setThreadState cur state)

/-- The scheduler after `Scheduler::init` with `idleThread`, on an empty thread list. -/
def boot (idleThread : Thread) : SchedSys := (SchedSys.init ⟨Scheduler.new, []⟩ idleThread).2

/-- The states reachable from `boot idleThread`. -/
def IsReachable (idleThread : Thread) (s : SchedSys) : Prop := Reachable SchedStep (boot idleThread) s

/-- The scheduler has been initialized with the idle thread `idle`, and a thread is current. -/
structure Live (idle : ThreadId) (s : SchedSys) : Prop where
  initialized : s.sched.initialized = true
  idle : s.sched.idle = some idle
  current : s.sched.current.isSome

variable {s s' : SchedSys} {idle : ThreadId}

/-! ### The queues across a tick -/

theorem tickQueues_count (sch : Scheduler) (id : ThreadId) :
    sch.ready.count id ≤ (tickQueues sch).2.2.1.count id := by
  rcases tickQueues_cases sch with ⟨cur, -, -, h⟩ | ⟨cur, -, -, h⟩ | ⟨-, h⟩
  · rw [h, ReadyQueues.count_popNext, ReadyQueues.count_push]
    exact Nat.le_add_right _ _
  · rw [h]
  · rw [h, ReadyQueues.count_popNext]

/-- With a running thread and a queued one, the block of a tick requeues the running thread:
the queues grow by one and stay non-empty. -/
theorem tickQueues_total {sch : Scheduler} {cur : ThreadId} (hc : sch.current = some cur)
    (hne : sch.ready.isEmpty = false) :
    (tickQueues sch).2.2.1.total = sch.ready.total + 1 := by
  rcases tickQueues_cases sch with ⟨cur', -, -, h⟩ | ⟨cur', -, he, -⟩ | ⟨hc', -⟩
  · rw [h, ReadyQueues.total_popNext, ReadyQueues.total_push]
  · rw [hne] at he
    cases he
  · rw [hc] at hc'
    cases hc'

/-! ### Each step -/

theorem live_step {a : SchedCall} (hl : Live idle s) (hst : SchedStep s a s') : Live idle s' := by
  cases hst with
  | addThread thread _ => exact ⟨hl.initialized, hl.idle, hl.current⟩
  | markReady id _ => exact ⟨hl.initialized, hl.idle, hl.current⟩
  | timerTick =>
      obtain ⟨c, -, h⟩ := onTimerTick_sched hl.initialized hl.idle
      exact ⟨by rw [h]; exact hl.initialized, by rw [h]; exact hl.idle, by rw [h]; rfl⟩
  | schedule =>
      obtain ⟨c, -, h⟩ := schedule_sched hl.initialized hl.idle
      exact ⟨by rw [h]; exact hl.initialized, by rw [h]; exact hl.idle, by rw [h]; rfl⟩
  | setCurrentState state _ cur _ => exact ⟨hl.initialized, hl.idle, hl.current⟩

/-- No step takes a thread off the ready queues. -/
theorem count_le_step {a : SchedCall} (hl : Live idle s) (hst : SchedStep s a s') (id : ThreadId) :
    s.sched.ready.count id ≤ s'.sched.ready.count id := by
  cases hst with
  | addThread thread _ =>
      rw [addThread_sched]
      split_ifs
      · rw [ReadyQueues.count_push]
        exact Nat.le_add_right _ _
      · exact le_rfl
  | markReady id' _ =>
      rw [markReady_sched, ReadyQueues.count_push]
      exact Nat.le_add_right _ _
  | timerTick =>
      obtain ⟨c, -, h⟩ := onTimerTick_sched hl.initialized hl.idle
      rw [h]
      exact tickQueues_count s.sched id
  | schedule =>
      obtain ⟨c, -, h⟩ := schedule_sched hl.initialized hl.idle
      rw [h, ReadyQueues.count_popNext]
  | setCurrentState state _ cur _ => exact le_rfl

/-! ### Runs -/

theorem live_boot (idleThread : Thread) : Live idleThread.id (boot idleThread) :=
  ⟨rfl, rfl, rfl⟩

/-- **Every reachable scheduler is live.** -/
theorem live_of_reachable {idleThread : Thread} (hs : IsReachable idleThread s) :
    Live idleThread.id s :=
  hs.induct (live_boot idleThread) fun _ _ _ hl hst => live_step hl hst

/-- **Once queued, always queued**: along any run from a live state, no thread is ever taken
off the ready queues. -/
theorem count_le_of_run (hl : Live idle s) (hrun : Reachable SchedStep s s') (id : ThreadId) :
    s.sched.ready.count id ≤ s'.sched.ready.count id := by
  have h := hrun.induct (P := fun s' => Live idle s' ∧ s.sched.ready.count id ≤ s'.sched.ready.count id)
    ⟨hl, le_rfl⟩ fun _ _ _ ⟨hl', hle⟩ hst => ⟨live_step hl' hst, hle.trans (count_le_step hl' hst id)⟩
  exact h.2

/-! ### Ticks make the queues grow -/

/-- **A tick lengthens the queues**: with a running thread and a non-empty queue, a tick requeues
the running thread while `pop_next` keeps the one it pops. -/
theorem onTimerTick_total (hl : Live idle s) (hne : s.sched.ready.isEmpty = false) :
    s.onTimerTick.2.sched.ready.total = s.sched.ready.total + 1 := by
  obtain ⟨c, -, h⟩ := onTimerTick_sched hl.initialized hl.idle
  obtain ⟨cur, hcur⟩ := Option.isSome_iff_exists.mp hl.current
  rw [h]
  exact tickQueues_total hcur hne

/-- `n` timer ticks in a row. -/
def ticks (n : Nat) (s : SchedSys) : SchedSys := (fun s : SchedSys => s.onTimerTick.2)^[n] s

theorem ticks_succ (n : Nat) (s : SchedSys) : ticks (n + 1) s = ticks n s.onTimerTick.2 :=
  Function.iterate_succ_apply _ n s

theorem ticks_succ' (n : Nat) (s : SchedSys) : ticks (n + 1) s = (ticks n s).onTimerTick.2 :=
  Function.iterate_succ_apply' _ n s

theorem ticks_run (n : Nat) (s : SchedSys) : Reachable SchedStep s (ticks n s) := by
  induction n with
  | zero => exact .init
  | succ n ih =>
      rw [ticks_succ']
      exact ih.next _ (SchedStep.timerTick _)

theorem length_ticks (n : Nat) (s : SchedSys) : (ticks n s).threads.length = s.threads.length := by
  induction n with
  | zero => rfl
  | succ n ih => rw [ticks_succ', length_onTimerTick, ih]

/-- **`n` ticks add `n` entries**, from a live state with a non-empty queue. -/
theorem total_ticks (hl : Live idle s) (hne : s.sched.ready.isEmpty = false) (n : Nat) :
    (ticks n s).sched.ready.total = s.sched.ready.total + n := by
  induction n generalizing s with
  | zero => rfl
  | succ n ih =>
      have htot := onTimerTick_total hl hne
      have hne' : s.onTimerTick.2.sched.ready.isEmpty = false := by
        rw [Bool.eq_false_iff, Ne, ReadyQueues.isEmpty_iff_total, htot]
        exact Nat.succ_ne_zero _
      rw [ticks_succ, ih (live_step hl (SchedStep.timerTick s)) hne', htot]
      omega

/-- **The ready queues outgrow the thread list**: from every reachable state with a queued
thread, `threads.length + 1` ticks later the queues hold more entries than there are threads. -/
theorem ready_overflow {idleThread : Thread} (hs : IsReachable idleThread s)
    (hne : s.sched.ready.isEmpty = false) :
    IsReachable idleThread (ticks (s.threads.length + 1) s) ∧
      (ticks (s.threads.length + 1) s).threads.length <
        (ticks (s.threads.length + 1) s).sched.ready.total := by
  refine ⟨hs.trans (ticks_run _ s), ?_⟩
  rw [length_ticks, total_ticks (live_of_reachable hs) hne]
  omega

/-! ### The thread a tick chooses -/

/-- The idle thread and a thread of normal priority, as `Thread::new` builds them. -/
def idleThread : Thread := Thread.new 1 0 0 0 0 .idle
def firstThread : Thread := Thread.new 2 0 0 0 0 .normal

/-- The idle thread runs and the first thread is queued. -/
def withFirst : SchedSys := ((boot idleThread).addThread firstThread).2

theorem withFirst_reachable : IsReachable idleThread withFirst :=
  Reachable.init.next _ (SchedStep.addThread _ _ (by decide))

/-- `withFirst` is live. -/
theorem live_of_reachable_withFirst :
    IsReachable idleThread withFirst ∧ Live idleThread.id withFirst :=
  ⟨withFirst_reachable, live_of_reachable withFirst_reachable⟩

/-- From `withFirst`, with the first thread queued, three ticks overflow the queues. -/
theorem ready_overflow_withFirst :
    IsReachable idleThread withFirst ∧ withFirst.sched.ready.isEmpty = false ∧
      IsReachable idleThread (ticks (withFirst.threads.length + 1) withFirst) ∧
      (ticks (withFirst.threads.length + 1) withFirst).threads.length <
        (ticks (withFirst.threads.length + 1) withFirst).sched.ready.total :=
  have hne : withFirst.sched.ready.isEmpty = false := by decide
  ⟨withFirst_reachable, hne, ready_overflow withFirst_reachable hne⟩

/-- Along two ticks from `withFirst`, the first thread stays queued. -/
theorem count_le_of_run_withFirst :
    Live 1 withFirst ∧ Reachable SchedStep withFirst (ticks 2 withFirst) ∧
      withFirst.sched.ready.count 2 ≤ (ticks 2 withFirst).sched.ready.count 2 :=
  have hl : Live 1 withFirst := ⟨by decide, by decide, by decide⟩
  ⟨hl, ticks_run 2 _, count_le_of_run hl (ticks_run 2 _) 2⟩

/-- Two ticks after the first thread joins, it is queued twice, and the queues hold three
entries for two threads. -/
theorem twoTicks_ready :
    IsReachable idleThread (ticks 2 withFirst) ∧
    (ticks 2 withFirst).sched.ready.queues ⟨2, by decide⟩ = [2, 2] ∧
    (ticks 2 withFirst).sched.ready.count 2 = 2 ∧
    (ticks 2 withFirst).threads.length = 2 ∧
    (ticks 2 withFirst).sched.ready.total = 3 := by
  refine ⟨withFirst_reachable.trans (ticks_run 2 _), ?_, ?_, ?_, ?_⟩ <;> decide

/-- After one tick the first thread runs; then it exits, as `sys_thread_exit` sets it. -/
def exitedFirst : SchedSys := (ticks 1 withFirst).setThreadState 2 .exited

/-- The tick that follows the exit chooses the exited thread again and sets it `Running`. -/
theorem onTimerTick_exitedFirst :
    IsReachable idleThread exitedFirst ∧
    exitedFirst.sched.current = some 2 ∧
    exitedFirst.stateOf 2 = some .exited ∧
    exitedFirst.onTimerTick.1.2 = some 2 ∧
    exitedFirst.onTimerTick.2.stateOf 2 = some .running := by
  have hcur : (ticks 1 withFirst).sched.current = some 2 := by decide
  refine ⟨(withFirst_reachable.trans (ticks_run 1 _)).next _
    (SchedStep.setCurrentState _ .exited (.inr rfl) 2 hcur), hcur, ?_, ?_, ?_⟩ <;> decide

end SchedSys

end Atom
