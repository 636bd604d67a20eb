import Mathlib

/-!
# Library — stream transducers

A driver that reads a stream one element at a time, and now and then completes a value, is a
transducer: a step `σ → ι → σ × Option ο` from a state and an input to the next state and what is
emitted.  `run` feeds it a list of inputs and collects what it emits, in order.

What a transducer is for is usually said of the whole stream at once, by a function `spec` from
the inputs to the outputs.  A step `Simulates` the spec when, from a state that keeps an invariant,
emitting what it emits and then going on from the inputs it holds (`buffered`) is the spec of the
inputs it held before (`Simulates.run_out`).

`frames` is the spec of a framing: a stream cut into frames of fixed width, each opened by an
element that may start a frame, with the elements that open none skipped (`frames_cons_of_not`),
a complete frame cut off as it is (`frames_cons_append`), and an unfinished last frame dropped
(`frames_of_length_le`).

Nothing here names a component of the kernel.
-/

namespace Atom.Lib.Transducer

variable {σ ι ο α : Type*}

/-- Feed the inputs one at a time: the last state and the outputs, in order. -/
def run (step : σ → ι → σ × Option ο) (s : σ) : List ι → σ × List ο
  | [] => (s, [])
  | i :: is =>
      let r := run step (step s i).1 is
      (r.1, (step s i).2.toList ++ r.2)

variable {step : σ → ι → σ × Option ο}

@[simp] theorem run_nil (s : σ) : run step s [] = (s, []) := rfl

@[simp] theorem run_cons (s : σ) (i : ι) (is : List ι) :
    run step s (i :: is) =
      ((run step (step s i).1 is).1, (step s i).2.toList ++ (run step (step s i).1 is).2) := rfl

/-! ### Simulation of a spec -/

/-- The step computes `spec` on the states satisfying `Inv`: it keeps `Inv`; what it emits, then
the spec from the inputs it buffers after, is the spec from the inputs it buffered before; and
what it buffers at the end of the stream completes nothing. -/
structure Simulates (step : σ → ι → σ × Option ο) (Inv : σ → Prop) (buffered : σ → List ι)
    (spec : List ι → List ο) : Prop where
  step_inv : ∀ s i, Inv s → Inv (step s i).1
  step_out : ∀ s i is, Inv s →
    spec (buffered s ++ i :: is) = (step s i).2.toList ++ spec (buffered (step s i).1 ++ is)
  flush : ∀ s, Inv s → spec (buffered s) = []

namespace Simulates

variable {Inv : σ → Prop} {buffered : σ → List ι} {spec : List ι → List ο}

/-- **What a run emits** is the spec of the inputs buffered at its start and those it is fed. -/
theorem run_out (h : Simulates step Inv buffered spec) {s : σ} (hs : Inv s) (is : List ι) :
    (run step s is).2 = spec (buffered s ++ is) := by
  induction is generalizing s with
  | nil => rw [List.append_nil, h.flush s hs]; rfl
  | cons i is ih => rw [run_cons, ih (h.step_inv s i hs), h.step_out s i is hs]

end Simulates

/-! ### Framing -/

/-- Cut a stream into frames of `k + 1` elements, each opened by an element `isStart` accepts;
an element that opens no frame is skipped, and an unfinished last frame is dropped. -/
def frames (isStart : α → Bool) (k : Nat) : List α → List (List α)
  | [] => []
  | a :: l =>
      if isStart a then
        if k ≤ l.length then (a :: l.take k) :: frames isStart k (l.drop k) else []
      else frames isStart k l
termination_by l => l.length

variable {isStart : α → Bool} {k : Nat}

@[simp] theorem frames_nil : frames isStart k [] = [] := by
  rw [frames]

theorem frames_cons_of_not {a : α} (ha : isStart a = false) (l : List α) :
    frames isStart k (a :: l) = frames isStart k l := by
  rw [frames, if_neg (by simp [ha])]

/-- A complete frame opened by `a` is cut off as it is. -/
theorem frames_cons_append {a : α} (ha : isStart a = true) {f : List α} (hf : f.length = k)
    (rest : List α) : frames isStart k (a :: (f ++ rest)) = (a :: f) :: frames isStart k rest := by
  have hlen : k ≤ (f ++ rest).length := by simp [hf]
  rw [frames, if_pos ha, if_pos hlen, List.take_left' hf, List.drop_left' hf]

/-- Fewer than `k + 1` elements hold no frame. -/
theorem frames_of_length_le : ∀ {l : List α}, l.length ≤ k → frames isStart k l = []
  | [], _ => frames_nil
  | a :: l, hl => by
      have hl' : l.length ≤ k := by simp at hl; omega
      rw [frames]
      split_ifs with ha hk
      · simp at hl; omega
      · rfl
      · exact frames_of_length_le hl'

/-- Frames each opened by an element that may open one are cut back as they are. -/
theorem frames_flatten {fs : List (List α)}
    (hfs : ∀ f ∈ fs, ∃ a t, f = a :: t ∧ isStart a = true ∧ t.length = k) :
    frames isStart k fs.flatten = fs := by
  induction fs with
  | nil => rw [List.flatten_nil, frames_nil]
  | cons f fs ih =>
      obtain ⟨a, t, rfl, ha, ht⟩ := hfs f List.mem_cons_self
      rw [List.flatten_cons, List.cons_append, frames_cons_append ha ht,
        ih fun f' hf' => hfs f' (List.mem_cons_of_mem _ hf')]

end Atom.Lib.Transducer
