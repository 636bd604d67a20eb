import Atom.Lib.Circular
import Atom.Kernel.Ipc.Port

/-!
# IPC — the trace ring

`IpcTraceBuffer` of `kernel/src/ipc.rs`: the last `IPC_TRACE_RING_SIZE` trace events, written at
`head`, which wraps; `full` is set when `head` first comes back to `0`.  `snapshot` reads from
the oldest event on: from `head` once the ring is full, from `0` before.

What the ring holds is a window of its cells (`Circular.window`): the `head` cells from `0`
before it is full, all the cells from `head` after (`TraceHolds`).

* `traceHolds_push`: one push keeps the window the last events pushed.
* `snapshot_pushAll`: after any pushes, `snapshot k` is the first `k` of the last
  `IPC_TRACE_RING_SIZE` events, in the order they were pushed.
-/

namespace Atom

open Lib

/-- `IPC_TRACE_RING_SIZE`. -/
def IPC_TRACE_RING_SIZE : Nat := 1000

/-- `IpcEventKind`. -/
inductive IpcEventKind where
  | send
  | receive
  deriving DecidableEq, Repr

/-- `IpcTraceEvent`. -/
structure IpcTraceEvent where
  timestampMs : UInt64
  kind : IpcEventKind
  port : PortId
  sender : ThreadId
  receiver : Option ThreadId
  size : Nat
  deriving DecidableEq, Repr

/-- `IpcTraceBuffer`: the cells (those from `IPC_TRACE_RING_SIZE` on are never read), `head`
and `full`. -/
structure IpcTraceBuffer where
  events : Nat → Option IpcTraceEvent
  head : Nat
  full : Bool
  head_lt : head < IPC_TRACE_RING_SIZE

namespace IpcTraceBuffer

/-- `IpcTraceBuffer::new`. -/
def new : IpcTraceBuffer := ⟨fun _ => none, 0, false, by decide⟩

/-- `IpcTraceBuffer::push`: the event goes at `head`, which moves on, wrapping; the ring is full
once `head` is back at `0`. -/
def push (b : IpcTraceBuffer) (event : IpcTraceEvent) : IpcTraceBuffer :=
  let head := (b.head + 1) % IPC_TRACE_RING_SIZE
  { events := Function.update b.events b.head (some event)
    head
    full := if head = 0 then true else b.full
    head_lt := Nat.mod_lt _ (by decide) }

/-- `IpcTraceBuffer::snapshot`: at most `maxEvents` events from the oldest on. -/
def snapshot (b : IpcTraceBuffer) (maxEvents : Nat) : List IpcTraceEvent :=
  let total := if b.full then IPC_TRACE_RING_SIZE else b.head
  let toCollect := min total maxEvents
  (List.range toCollect).filterMap fun i =>
    let idx := if b.full then (b.head + i) % IPC_TRACE_RING_SIZE else i
    b.events idx

/-- The ring after the events of `es` are pushed in order. -/
def pushAll (b : IpcTraceBuffer) (es : List IpcTraceEvent) : IpcTraceBuffer := es.foldl push b

/-! ### What the ring holds -/

/-- The ring holds the last events of `es`: all of them, from cell `0` to `head`, before it is
full; the last `IPC_TRACE_RING_SIZE` of them, from `head` round to `head`, after. -/
def TraceHolds (es : List IpcTraceEvent) (b : IpcTraceBuffer) : Prop :=
  if b.full then
    IPC_TRACE_RING_SIZE ≤ es.length ∧
      Circular.window b.events IPC_TRACE_RING_SIZE b.head IPC_TRACE_RING_SIZE =
        (es.drop (es.length - IPC_TRACE_RING_SIZE)).map some
  else
    b.head = es.length ∧ Circular.window b.events IPC_TRACE_RING_SIZE 0 b.head = es.map some

theorem traceHolds_new : TraceHolds [] new := by
  simp [TraceHolds, new]

/-- Dropping one more element of a longer list drops its head. -/
theorem drop_append_singleton {α : Type*} (l : List α) (a : α) {n : Nat} (hpos : 0 < n)
    (hn : n ≤ l.length) : (l ++ [a]).drop (l.length + 1 - n) = ((l.drop (l.length - n)).tail ++ [a]) := by
  have hne : l.drop (l.length - n) ≠ [] := by
    rw [← List.length_pos_iff, List.length_drop]
    omega
  rw [show l.length + 1 - n = (l.length - n) + 1 by omega, ← List.drop_drop,
    List.drop_append_of_le_length (by omega), List.drop_one, List.tail_append_of_ne_nil hne]

/-- **One push.**  Writing the next event at `head` keeps the ring holding the last events. -/
theorem traceHolds_push {es : List IpcTraceEvent} {b : IpcTraceBuffer} (h : TraceHolds es b)
    (e : IpcTraceEvent) : TraceHolds (es ++ [e]) (b.push e) := by
  have hhead := b.head_lt
  unfold TraceHolds at h ⊢
  by_cases hfull : b.full = true
  · -- full: the oldest event is overwritten and `head` moves past it
    rw [if_pos hfull] at h
    obtain ⟨hlen, hwin⟩ := h
    have hfull' : (b.push e).full = true := by simp [push, hfull]
    rw [if_pos hfull', List.length_append, List.length_singleton]
    refine ⟨by omega, ?_⟩
    have hwin' : Circular.window (Function.update b.events (b.head % IPC_TRACE_RING_SIZE) (some e))
        IPC_TRACE_RING_SIZE ((b.head + 1) % IPC_TRACE_RING_SIZE) IPC_TRACE_RING_SIZE =
        (Circular.window b.events IPC_TRACE_RING_SIZE b.head IPC_TRACE_RING_SIZE).tail ++ [some e] :=
      Circular.window_push_full b.events (by decide) (some e)
    rw [Nat.mod_eq_of_lt hhead, hwin] at hwin'
    rw [show (b.push e).events = Function.update b.events b.head (some e) from rfl,
      show (b.push e).head = (b.head + 1) % IPC_TRACE_RING_SIZE from rfl, hwin',
      drop_append_singleton es e (by decide) hlen, List.map_append, List.map_tail, List.map_singleton]
  · -- not full: the event goes right after the others
    rw [if_neg hfull] at h
    obtain ⟨hlen, hwin⟩ := h
    have hpush : Circular.window (Function.update b.events ((0 + b.head) % IPC_TRACE_RING_SIZE) (some e))
        IPC_TRACE_RING_SIZE 0 (b.head + 1) =
        Circular.window b.events IPC_TRACE_RING_SIZE 0 b.head ++ [some e] :=
      Circular.window_push b.events hhead (some e)
    rw [Nat.zero_add, Nat.mod_eq_of_lt hhead, hwin] at hpush
    have hnext := Circular.succ_mod hhead
    by_cases hwrap : b.head + 1 = IPC_TRACE_RING_SIZE
    · -- `head` comes back to `0`: the ring is now full and holds every event
      rw [if_pos hwrap] at hnext
      have hfull' : (b.push e).full = true := by simp [push, hnext]
      rw [if_pos hfull', List.length_append, List.length_singleton, ← hlen, hwrap, Nat.sub_self,
        List.drop_zero, List.map_append, List.map_singleton]
      refine ⟨le_refl _, ?_⟩
      rw [hwrap] at hpush
      rw [show (b.push e).head = 0 from hnext]
      exact hpush
    · rw [if_neg hwrap] at hnext
      have hfull' : (b.push e).full = false := by simp [push, hnext, hfull]
      rw [if_neg (by simp [hfull']), show (b.push e).head = b.head + 1 from hnext, List.length_append,
        List.length_singleton, ← hlen, List.map_append, List.map_singleton]
      exact ⟨rfl, hpush⟩

/-- **Every run of pushes.** -/
theorem traceHolds_pushAll (es : List IpcTraceEvent) : TraceHolds es (new.pushAll es) := by
  unfold pushAll
  induction es using List.reverseRecOn with
  | nil => exact traceHolds_new
  | append_singleton es e ih =>
      rw [List.foldl_append, List.foldl_cons, List.foldl_nil]
      exact traceHolds_push ih e

/-- The cells `snapshot` reads are the first ones of the window the ring holds. -/
theorem snapshot_eq_window (b : IpcTraceBuffer) (maxEvents : Nat) :
    b.snapshot maxEvents =
      (if b.full then (Circular.window b.events IPC_TRACE_RING_SIZE b.head IPC_TRACE_RING_SIZE).take maxEvents
        else (Circular.window b.events IPC_TRACE_RING_SIZE 0 b.head).take maxEvents).filterMap id := by
  have hhead := b.head_lt
  unfold snapshot
  split_ifs with hfull
  · rw [Circular.take_window, Nat.min_comm, Circular.window, List.filterMap_map]
    rfl
  · rw [Circular.take_window, Nat.min_comm, Circular.window, List.filterMap_map]
    -- before the ring is full a cell is read at its own index, below `head`
    refine List.filterMap_congr fun i hi => ?_
    have hi' : i < b.head := Nat.lt_of_lt_of_le (List.mem_range.mp hi) (Nat.min_le_left _ _)
    simp [Nat.mod_eq_of_lt (Nat.lt_trans hi' hhead)]

/-- **The snapshot is the right window**: after any pushes from `IpcTraceBuffer::new`,
`snapshot k` returns the first `k` of the last `IPC_TRACE_RING_SIZE` events pushed (all of them
while fewer were pushed), oldest first. -/
theorem snapshot_pushAll (es : List IpcTraceEvent) (k : Nat) :
    (new.pushAll es).snapshot k = (es.drop (es.length - IPC_TRACE_RING_SIZE)).take k := by
  have h := traceHolds_pushAll es
  rw [snapshot_eq_window]
  unfold TraceHolds at h
  split_ifs at h ⊢ with hfull
  · rw [h.2, ← List.map_take, List.filterMap_map]
    exact List.filterMap_some
  · have hdrop : es.drop (es.length - IPC_TRACE_RING_SIZE) = es := by
      rw [Nat.sub_eq_zero_of_le (by have := (new.pushAll es).head_lt; omega), List.drop_zero]
    rw [h.2, hdrop, ← List.map_take, List.filterMap_map]
    exact List.filterMap_some

end IpcTraceBuffer

end Atom
