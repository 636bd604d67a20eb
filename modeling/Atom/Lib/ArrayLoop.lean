import Mathlib

/-!
# Library — loops over an array held as a function

An array whose cells a loop rewrites one index at a time is modelled as a function `Nat → α`
updated in a `List.foldl` over the indices.  Two loops recur: one that moves every cell of a
range down by `n` places, reading each cell before any write reaches it (`foldl_shiftDown`), and
one that fills a range with one value (`foldl_fill`).  Each is a closed form of the loop, proved
by induction over the range.

Nothing here names a component of the kernel.
-/

namespace Atom.Lib.ArrayLoop

variable {α : Type*}

/-- The loop `for i in 0..m { if i + n < bound { a[i] = a[i + n] } }`, for a range within the
bound: each cell reads the one `n` places up, which no earlier write has reached. -/
theorem foldl_shiftDown (f : Nat → α) {m n bound : Nat} (h : m + n ≤ bound) :
    (List.range m).foldl
        (fun g i => if i + n < bound then Function.update g i (g (i + n)) else g) f =
      fun i => if i < m then f (i + n) else f i := by
  induction m with
  | zero => rfl
  | succ m ih =>
      rw [List.range_succ, List.foldl_append, ih (by omega), List.foldl_cons, List.foldl_nil,
        if_pos (by omega)]
      funext i
      -- the cell `m + n` read by the last write is past the cells written before
      dsimp only
      rw [if_neg (show ¬(m + n < m) by omega)]
      by_cases hi : i = m
      · subst hi
        simp
      · rw [Function.update_of_ne hi]
        by_cases him : i < m
        · rw [if_pos him, if_pos (by omega)]
        · rw [if_neg him, if_neg (by omega)]

/-- The loop `for i in lo..lo + n { a[i] = x }`. -/
theorem foldl_fill (f : Nat → α) (x : α) (lo n : Nat) :
    (List.range' lo n).foldl (fun g i => Function.update g i x) f =
      fun i => if lo ≤ i ∧ i < lo + n then x else f i := by
  induction n generalizing lo f with
  | zero =>
      funext i
      rw [if_neg (by omega)]
      rfl
  | succ n ih =>
      rw [List.range'_succ, List.foldl_cons, ih]
      funext i
      by_cases hi : i = lo
      · subst hi
        simp
      · rw [Function.update_of_ne hi]
        by_cases hin : lo + 1 ≤ i ∧ i < lo + 1 + n
        · rw [if_pos hin, if_pos (by omega)]
        · rw [if_neg hin, if_neg (by omega)]

end Atom.Lib.ArrayLoop
