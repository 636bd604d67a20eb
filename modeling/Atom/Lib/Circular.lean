import Mathlib.Logic.Function.Basic
import Mathlib.Data.List.Basic

/-!
# Library — circular arrays

A circular array of `N` cells, indexed by `Nat` (cells from `N` on are never read), and the
*window* of `count` cells from `start` on, wrapping at `N` (`window`): the view a ring buffer
gives of the elements it holds, read from its oldest one.

* `window_push`: writing the cell right after a window that is not the whole array extends the
  window by that element.
* `window_pop`: a window is its first cell followed by the window one cell further on.
* `window_push_full`: writing the first cell of a window of all `N` cells and moving the start
  past it drops the oldest element and appends the new one.

Nothing here names a component of the kernel.
-/

namespace Atom.Lib.Circular

variable {α : Type*} {N : Nat}

/-- The `count` cells of `buf` from `start` on, wrapping at `N`. -/
def window (buf : Nat → α) (N start count : Nat) : List α :=
  (List.range count).map fun i => buf ((start + i) % N)

@[simp] theorem length_window (buf : Nat → α) (N start count : Nat) :
    (window buf N start count).length = count := by
  simp [window]
@[simp] theorem window_zero (buf : Nat → α) (N start : Nat) : window buf N start 0 = [] := rfl


theorem window_succ (buf : Nat → α) (N start count : Nat) :
    window buf N start (count + 1) = window buf N start count ++ [buf ((start + count) % N)] := by
  simp [window, List.range_succ]

/-- The first `m` cells of a window are the window of `m` cells, if it has that many. -/
theorem take_window (buf : Nat → α) (N start count m : Nat) :
    (window buf N start count).take m = window buf N start (min m count) := by
  simp [window, List.take_range, ← List.map_take]

/-- Moving one cell on from a cell of the array: to the next one, or back to `0` from the last. -/
theorem succ_mod {x : Nat} (hx : x < N) : (x + 1) % N = if x + 1 = N then 0 else x + 1 := by
  split_ifs with h
  · rw [h, Nat.mod_self]
  · exact Nat.mod_eq_of_lt (by omega)

/-- Two cells fewer than `N` apart are distinct. -/
theorem mod_ne_of_lt {start i j : Nat} (hij : i < j) (hj : j < N) :
    (start + i) % N ≠ (start + j) % N := by
  intro h
  -- equal residues differ by a multiple of `N`, and `j - i` is a positive number below `N`
  have hdvd := Nat.sub_mod_eq_zero_of_mod_eq h.symm
  rw [Nat.add_sub_add_left, Nat.mod_eq_of_lt (by omega)] at hdvd
  omega

/-- A write outside a window leaves it as it was. -/
theorem window_update_of_forall {buf : Nat → α} {start count p : Nat} (a : α)
    (hp : ∀ i < count, (start + i) % N ≠ p) :
    window (Function.update buf p a) N start count = window buf N start count := by
  unfold window
  refine List.map_congr_left fun i hi => ?_
  exact Function.update_of_ne (hp i (List.mem_range.mp hi)) a buf

/-- **Push**: writing the cell right after a window shorter than the array appends to it. -/
theorem window_push (buf : Nat → α) {start count : Nat} (hcount : count < N) (a : α) :
    window (Function.update buf ((start + count) % N) a) N start (count + 1) =
      window buf N start count ++ [a] := by
  rw [window_succ, Function.update_self,
    window_update_of_forall a fun i hi => mod_ne_of_lt hi hcount]

/-- **Pop**: a window is its first cell, then the window one cell further on. -/
theorem window_pop (buf : Nat → α) (start count : Nat) :
    window buf N start (count + 1) = buf (start % N) :: window buf N ((start + 1) % N) count := by
  unfold window
  rw [List.range_succ_eq_map, List.map_cons, List.map_map]
  -- the heads agree as they stand; the rest read the cell `start + 1 + i` places on
  congr 1
  refine List.map_congr_left fun i _ => ?_
  rw [Function.comp_apply, Nat.mod_add_mod, Nat.add_right_comm start 1 i, Nat.add_assoc start i 1]

/-- Moving the start once round the array brings it back. -/
theorem add_mod_self (start : Nat) : (start + N) % N = start % N := Nat.add_mod_right start N

/-- **Push into a full window**: overwriting the oldest cell of a window of all `N` cells and
moving the start past it drops the oldest element and appends the new one. -/
theorem window_push_full (buf : Nat → α) {start : Nat} (hN : 0 < N) (a : α) :
    window (Function.update buf (start % N) a) N ((start + 1) % N) N =
      (window buf N start N).tail ++ [a] := by
  obtain ⟨n, rfl⟩ : ∃ n, N = n + 1 := ⟨N - 1, by omega⟩
  rw [window_pop buf start n, List.tail_cons, window_succ]
  congr 1
  · -- the cells after the oldest are not the one written
    refine window_update_of_forall a fun i hi => ?_
    have hne : (start + 0) % (n + 1) ≠ (start + (i + 1)) % (n + 1) :=
      mod_ne_of_lt (Nat.succ_pos i) (Nat.add_lt_add_right hi 1)
    rw [Nat.add_zero] at hne
    rw [Nat.mod_add_mod, Nat.add_right_comm]
    exact fun h => hne (by rw [← h, Nat.add_assoc])
  · -- the new last cell is the oldest one, a whole turn on
    rw [Nat.mod_add_mod, Nat.add_right_comm, Nat.add_assoc, add_mod_self, Function.update_self]

end Atom.Lib.Circular
