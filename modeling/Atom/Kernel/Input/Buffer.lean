import Atom.Lib.Circular
import Atom.Lib.Reach

/-!
# Input — the IRQ ring buffers

`RingBuffer<N>` of `kernel/src/input.rs`: `N` bytes with a `head`, where the next byte is
written, and a `tail`, where the next byte is read, both wrapping at `N`; a push that would make
`head` meet `tail` drops its byte, so the buffer holds at most `N - 1` bytes.  The keyboard and
mouse interrupts push the bytes the PS/2 controller has ready (`onKeyboardIrq`, `onMouseIrq`) and
the polling calls pop them.

The bytes a buffer holds are the window of `len` cells from `tail` (`RingBuffer.contents`); with
it the buffer is a bounded first-in first-out queue (`Fifo`).

* `push_spec`, `pop_spec`: one call of each, against the queue.
* `ringBuffer_fifo`: every sequence of calls from `RingBuffer::new` answers as the queue of
  capacity `N - 1` does, and holds what the queue holds.
-/

namespace Atom

open Lib

/-- `KEYBOARD_BUFFER_SIZE`. -/
def KEYBOARD_BUFFER_SIZE : Nat := 128

/-- `MOUSE_BUFFER_SIZE`. -/
def MOUSE_BUFFER_SIZE : Nat := 256

/-- `RingBuffer<N>`: the cells (those from `N` on are never read) and the two positions, each
below `N`. -/
structure RingBuffer (N : Nat) where
  buffer : Nat → UInt8
  head : Nat
  tail : Nat
  head_lt : head < N
  tail_lt : tail < N

namespace RingBuffer

variable {N : Nat}

/-- `RingBuffer::new`. -/
def new (N : Nat) (hN : 0 < N) : RingBuffer N := ⟨fun _ => 0, 0, 0, hN, hN⟩

/-- `RingBuffer::push`: the byte is dropped when the next `head` would meet `tail`. -/
def push (rb : RingBuffer N) (byte : UInt8) : Bool × RingBuffer N :=
  let nextHead := (rb.head + 1) % N
  if nextHead = rb.tail then (false, rb)
  else
    (true, { rb with
      buffer := Function.update rb.buffer rb.head byte
      head := nextHead
      head_lt := Nat.mod_lt _ (Nat.zero_lt_of_lt rb.head_lt) })

/-- `RingBuffer::pop`. -/
def pop (rb : RingBuffer N) : Option UInt8 × RingBuffer N :=
  if rb.head = rb.tail then (none, rb)
  else
    (some (rb.buffer rb.tail), { rb with
      tail := (rb.tail + 1) % N
      tail_lt := Nat.mod_lt _ (Nat.zero_lt_of_lt rb.tail_lt) })

/-- `RingBuffer::len`. -/
def len (rb : RingBuffer N) : Nat :=
  if rb.head ≥ rb.tail then rb.head - rb.tail else N - rb.tail + rb.head

/-- `RingBuffer::is_empty`. -/
def isEmpty (rb : RingBuffer N) : Bool := rb.head == rb.tail

/-- The bytes the buffer holds, oldest first. -/
def contents (rb : RingBuffer N) : List UInt8 := Circular.window rb.buffer N rb.tail rb.len

end RingBuffer

/-- The bytes the interrupt handler reads while the controller has data for it, pushed one by
one; a byte that finds the buffer full is dropped. -/
def pushAll {N : Nat} (rb : RingBuffer N) (bytes : List UInt8) : RingBuffer N :=
  bytes.foldl (fun rb b => (rb.push b).2) rb

/-- `on_keyboard_irq`: the keyboard bytes the controller has ready, before the first byte that
is mouse data. -/
def onKeyboardIrq (kb : RingBuffer KEYBOARD_BUFFER_SIZE) (scancodes : List UInt8) :
    RingBuffer KEYBOARD_BUFFER_SIZE :=
  pushAll kb scancodes

/-- `on_mouse_irq`: the mouse bytes the controller has ready. -/
def onMouseIrq (mouse : RingBuffer MOUSE_BUFFER_SIZE) (bytes : List UInt8) :
    RingBuffer MOUSE_BUFFER_SIZE :=
  pushAll mouse bytes

/-! ### The queue a ring buffer is -/

/-- A first-in first-out queue of at most `capacity` elements: a push into a full queue is
refused and changes nothing. -/
def Fifo.push {α : Type*} (capacity : Nat) (q : List α) (a : α) : Bool × List α :=
  if q.length = capacity then (false, q) else (true, q ++ [a])

/-- Taking the front of a queue. -/
def Fifo.pop {α : Type*} (q : List α) : Option α × List α := (q.head?, q.tail)

namespace RingBuffer

variable {N : Nat} (rb : RingBuffer N)

theorem len_lt : rb.len < N := by
  have := rb.head_lt
  have := rb.tail_lt
  unfold len
  split_ifs <;> omega

/-- `head` is `len` cells on from `tail`. -/
theorem head_eq : rb.head = (rb.tail + rb.len) % N := by
  have hh := rb.head_lt
  have ht := rb.tail_lt
  unfold len
  split_ifs with hle
  · rw [Nat.add_sub_cancel' hle, Nat.mod_eq_of_lt hh]
  · -- `head` has wrapped: `tail + (N - tail + head)` is one turn past `head`
    rw [show rb.tail + (N - rb.tail + rb.head) = rb.head + N by omega, Nat.add_mod_right,
      Nat.mod_eq_of_lt hh]

/-- The next `head` meets `tail` exactly when `N - 1` bytes are held. -/
theorem nextHead_eq_tail_iff : (rb.head + 1) % N = rb.tail ↔ rb.len = N - 1 := by
  have ht := rb.tail_lt
  have hl := rb.len_lt
  rw [head_eq, Nat.mod_add_mod, Nat.add_assoc]
  constructor
  · intro h
    -- `len + 1` is a positive multiple of `N` no larger than `N`
    have hdvd : (rb.len + 1) % N = 0 := by
      have := Nat.sub_mod_eq_zero_of_mod_eq (h.trans (Nat.mod_eq_of_lt ht).symm)
      rwa [Nat.add_sub_cancel_left] at this
    rcases Nat.lt_or_ge (rb.len + 1) N with hsmall | hbig
    · rw [Nat.mod_eq_of_lt hsmall] at hdvd
      omega
    · omega
  · intro h
    rw [show rb.tail + (rb.len + 1) = rb.tail + N by omega, Nat.add_mod_right, Nat.mod_eq_of_lt ht]

/-- `len` is the number of cells from `tail` to `head`: any count below `N` that reaches `head`
from `tail` is `len`. -/
theorem len_eq_of {l : Nat} (hl : l < N) (h : rb.head = (rb.tail + l) % N) : rb.len = l := by
  have hlen := rb.len_lt
  rw [head_eq] at h
  by_contra hne
  rcases Nat.lt_or_gt_of_ne hne with hlt | hgt
  · exact Circular.mod_ne_of_lt hlt hl h
  · exact Circular.mod_ne_of_lt hgt hlen h.symm

@[simp] theorem len_new (hN : 0 < N) : (new N hN).len = 0 := by simp [new, len]

@[simp] theorem contents_new (hN : 0 < N) : (new N hN).contents = [] := by
  simp [contents, len_new]

theorem length_contents : rb.contents.length = rb.len := Circular.length_window _ _ _ _

/-- **Push**: `push` answers and moves as the queue of capacity `N - 1` does. -/
theorem push_spec (byte : UInt8) :
    (rb.push byte).1 = (Fifo.push (N - 1) rb.contents byte).1 ∧
      (rb.push byte).2.contents = (Fifo.push (N - 1) rb.contents byte).2 := by
  have hl := rb.len_lt
  by_cases hfull : rb.len = N - 1
  · have hpush : rb.push byte = (false, rb) := by simp [push, (nextHead_eq_tail_iff rb).mpr hfull]
    simp [hpush, Fifo.push, length_contents, hfull]
  · have hne : (rb.head + 1) % N ≠ rb.tail := fun h => hfull ((nextHead_eq_tail_iff rb).mp h)
    have hbuf : (rb.push byte).2.buffer = Function.update rb.buffer rb.head byte := by simp [push, hne]
    have hhead : (rb.push byte).2.head = (rb.head + 1) % N := by simp [push, hne]
    have htail : (rb.push byte).2.tail = rb.tail := by simp [push, hne]
    -- the new `head` is one cell further from the same `tail`
    have hlen : (rb.push byte).2.len = rb.len + 1 := by
      refine (rb.push byte).2.len_eq_of (by omega) ?_
      rw [hhead, htail, head_eq, Nat.mod_add_mod, Nat.add_assoc]
    have hfifo : Fifo.push (N - 1) rb.contents byte = (true, rb.contents ++ [byte]) := by
      simp [Fifo.push, length_contents, hfull]
    refine ⟨by simp [hfifo, push, hne], ?_⟩
    rw [hfifo, contents, hbuf, htail, hlen, head_eq, Circular.window_push _ hl]
    rfl

/-- **Pop**: `pop` answers and moves as taking the front of the queue does. -/
theorem pop_spec : rb.pop.1 = (Fifo.pop rb.contents).1 ∧ rb.pop.2.contents = (Fifo.pop rb.contents).2 := by
  by_cases hempty : rb.head = rb.tail
  · -- `head` on `tail`: nothing held
    have hlen : rb.len = 0 := rb.len_eq_of (Nat.zero_lt_of_lt rb.tail_lt)
      (by rw [Nat.add_zero, Nat.mod_eq_of_lt rb.tail_lt, hempty])
    have hnil : rb.contents = [] := List.eq_nil_of_length_eq_zero (by rw [length_contents, hlen])
    simp [pop, Fifo.pop, hempty, hnil]
  · obtain ⟨l, hl⟩ : ∃ l, rb.len = l + 1 := ⟨rb.len - 1, by
      have := rb.head_eq
      by_contra h0
      exact hempty (by rw [this, show rb.len = 0 by omega, Nat.add_zero, Nat.mod_eq_of_lt rb.tail_lt])⟩
    have hcons : rb.contents = rb.buffer rb.tail :: Circular.window rb.buffer N ((rb.tail + 1) % N) l := by
      rw [contents, hl, Circular.window_pop, Nat.mod_eq_of_lt rb.tail_lt]
    have hbuf : rb.pop.2.buffer = rb.buffer := by simp [pop, hempty]
    have hhead : rb.pop.2.head = rb.head := by simp [pop, hempty]
    have htail : rb.pop.2.tail = (rb.tail + 1) % N := by simp [pop, hempty]
    -- `tail` moves one cell towards the same `head`
    have hlen : rb.pop.2.len = l := by
      refine rb.pop.2.len_eq_of (by have := rb.len_lt; omega) ?_
      rw [hhead, htail, head_eq, hl, Nat.mod_add_mod, Nat.add_assoc, Nat.add_comm 1 l]
    refine ⟨by simp [pop, Fifo.pop, hempty, hcons], ?_⟩
    rw [Fifo.pop, hcons, List.tail_cons, contents, hbuf, htail, hlen]

/-- A full buffer refuses a push and is left as it was. -/
theorem push_of_full {byte : UInt8} (hfull : (rb.push byte).1 = false) : (rb.push byte).2 = rb := by
  unfold push at hfull ⊢
  dsimp only at hfull ⊢
  -- a kept byte answers `true`, so only the refusing branch is left
  split_ifs at hfull ⊢
  rfl

/-! ### Runs of calls -/

/-- The calls of `RingBuffer<N>`. -/
inductive Call where
  | push (byte : UInt8)
  | pop
  | len
  | isEmpty

/-- What a call answers. -/
inductive Answer where
  | pushed (kept : Bool)
  | popped (byte : Option UInt8)
  | length (n : Nat)
  | empty (b : Bool)
  deriving DecidableEq

/-- One call on the buffer. -/
def call (rb : RingBuffer N) : Call → Answer × RingBuffer N
  | .push byte => (.pushed (rb.push byte).1, (rb.push byte).2)
  | .pop => (.popped rb.pop.1, rb.pop.2)
  | .len => (.length rb.len, rb)
  | .isEmpty => (.empty rb.isEmpty, rb)

end RingBuffer

/-- One call on the queue of capacity `capacity`. -/
def Fifo.call (capacity : Nat) (q : List UInt8) : RingBuffer.Call → RingBuffer.Answer × List UInt8
  | .push byte => (.pushed (Fifo.push capacity q byte).1, (Fifo.push capacity q byte).2)
  | .pop => (.popped (Fifo.pop q).1, (Fifo.pop q).2)
  | .len => (.length q.length, q)
  | .isEmpty => (.empty q.isEmpty, q)

namespace RingBuffer

variable {N : Nat}

theorem isEmpty_eq (rb : RingBuffer N) : rb.isEmpty = rb.contents.isEmpty := by
  -- both say that `head` is on `tail`
  have hiff : rb.head = rb.tail ↔ rb.len = 0 := by
    constructor
    · intro h
      exact rb.len_eq_of (Nat.zero_lt_of_lt rb.tail_lt) (by rw [Nat.add_zero, Nat.mod_eq_of_lt rb.tail_lt, h])
    · intro h
      rw [head_eq, h, Nat.add_zero, Nat.mod_eq_of_lt rb.tail_lt]
  rw [isEmpty, Bool.eq_iff_iff, beq_iff_eq, List.isEmpty_iff_length_eq_zero, length_contents, hiff]

/-- Each call answers as the queue of capacity `N - 1` does, and the buffer then holds what the
queue holds. -/
theorem call_spec (rb : RingBuffer N) (c : Call) :
    (rb.call c).1 = (Fifo.call (N - 1) rb.contents c).1 ∧
      (rb.call c).2.contents = (Fifo.call (N - 1) rb.contents c).2 := by
  cases c with
  | push byte =>
      obtain ⟨hans, hstate⟩ := rb.push_spec byte
      exact ⟨by rw [call, Fifo.call, hans], hstate⟩
  | pop =>
      obtain ⟨hans, hstate⟩ := rb.pop_spec
      exact ⟨by rw [call, Fifo.call, hans], hstate⟩
  | len => exact ⟨by rw [call, Fifo.call, length_contents], rfl⟩
  | isEmpty => exact ⟨by rw [call, Fifo.call, isEmpty_eq], rfl⟩

end RingBuffer

/-- **The ring buffer is a bounded queue**: from `RingBuffer::new`, every sequence of calls
answers as a first-in first-out queue of capacity `N - 1` does (`pop` returns the bytes of the
pushes that kept theirs, in order, and `None` exactly on an empty queue; `push` refuses exactly
when `N - 1` bytes are held; `len` counts the bytes held), and the buffer then holds what the
queue holds; a refused push leaves any buffer as it was. -/
theorem ringBuffer_fifo {N : Nat} (hN : 0 < N) (calls : List RingBuffer.Call) :
    (runOut RingBuffer.call (RingBuffer.new N hN) calls).1 = (runOut (Fifo.call (N - 1)) [] calls).1 ∧
    (runOut RingBuffer.call (RingBuffer.new N hN) calls).2.contents =
      (runOut (Fifo.call (N - 1)) [] calls).2 ∧
    ∀ (rb : RingBuffer N) (byte : UInt8), ((rb.push byte).1 = false ↔ rb.len = N - 1) ∧
      ((rb.push byte).1 = false → (rb.push byte).2 = rb) := by
  have hrun := runOut_simulates RingBuffer.contents RingBuffer.call_spec calls (RingBuffer.new N hN)
  rw [RingBuffer.contents_new] at hrun
  refine ⟨hrun.1, hrun.2, fun rb byte => ⟨?_, rb.push_of_full⟩⟩
  rw [(rb.push_spec byte).1, Fifo.push, RingBuffer.length_contents]
  split_ifs with h <;> simp [h]

/-- The keyboard buffer: three bytes pushed, two popped. -/
theorem ringBuffer_fifo_keyboard :
    0 < KEYBOARD_BUFFER_SIZE ∧
    (runOut RingBuffer.call (RingBuffer.new KEYBOARD_BUFFER_SIZE (by decide))
        [.push 0x1C, .push 0xF0, .push 0x1C, .pop, .pop, .len]).1 =
      (runOut (Fifo.call (KEYBOARD_BUFFER_SIZE - 1)) []
        [.push 0x1C, .push 0xF0, .push 0x1C, .pop, .pop, .len]).1 :=
  ⟨by decide, (ringBuffer_fifo (by decide) _).1⟩

end Atom
