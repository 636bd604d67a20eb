import Mathlib.Algebra.BigOperators.Group.Finset.Piecewise
import Mathlib.Algebra.Order.BigOperators.Group.Finset

/-!
# Banks of FIFO queues

`n` first-in first-out queues side by side, one per level, as a function from `Fin n` to lists;
the front of a queue is the head of its list.  `enqueue` appends at the back of one queue and
`dequeue` takes the front off one; `total` counts the entries of all the queues and `count`
the entries equal to a given value.

* `total_update`, `count_update`: replacing one queue changes the sums by the difference.
* `total_enqueue`, `count_enqueue`: an enqueue adds one entry.
* `dequeue_eq_some`, `dequeue_of_nil`: the two outcomes of a dequeue; `total_dequeue` and
  `count_dequeue` count what it removes.
* `total_eq_zero`: no entries exactly when every queue is empty.
-/

namespace Atom.Lib.Queues

variable {α : Type*} {n : Nat}

/-- Append `a` at the back of queue `i`. -/
def enqueue (q : Fin n → List α) (i : Fin n) (a : α) : Fin n → List α :=
  Function.update q i (q i ++ [a])

/-- Take the front off queue `i`, if it has one. -/
def dequeue (q : Fin n → List α) (i : Fin n) : Option α × (Fin n → List α) :=
  match q i with
  | [] => (none, q)
  | a :: rest => (some a, Function.update q i rest)

/-- The number of entries over all queues. -/
def total (q : Fin n → List α) : Nat := ∑ i, (q i).length

/-- How many entries of all queues are `a`. -/
def count [DecidableEq α] (q : Fin n → List α) (a : α) : Nat := ∑ i, (q i).count a

/-! ### Sums over the queues -/

/-- A sum over the queues of some measure of each, after queue `i` is replaced by `l`. -/
theorem sum_update (g : List α → Nat) (q : Fin n → List α) (i : Fin n) (l : List α) :
    ∑ j, g (Function.update q i l j) + g (q i) = ∑ j, g (q j) + g l := by
  have hu : ∀ j, g (Function.update q i l j) = Function.update (fun k => g (q k)) i (g l) j :=
    fun j => Function.apply_update (fun _ => g) q i l j
  simp only [hu, Finset.sum_update_of_mem (Finset.mem_univ i)]
  rw [Finset.sum_eq_add_sum_sdiff_singleton_of_mem (Finset.mem_univ i) (fun k => g (q k))]
  omega

theorem total_update (q : Fin n → List α) (i : Fin n) (l : List α) :
    total (Function.update q i l) + (q i).length = total q + l.length :=
  sum_update List.length q i l

theorem count_update [DecidableEq α] (q : Fin n → List α) (i : Fin n) (l : List α) (a : α) :
    count (Function.update q i l) a + (q i).count a = count q a + l.count a :=
  sum_update (List.count a) q i l

/-! ### Enqueue and dequeue -/

variable {q q' : Fin n → List α} {i : Fin n} {a : α}

@[simp] theorem total_enqueue : total (enqueue q i a) = total q + 1 := by
  have h := total_update q i (q i ++ [a])
  rw [List.length_append, List.length_singleton] at h
  unfold enqueue
  omega

@[simp] theorem count_enqueue [DecidableEq α] (b : α) :
    count (enqueue q i a) b = count q b + if a = b then 1 else 0 := by
  have h := count_update q i (q i ++ [a]) b
  rw [List.count_append, List.count_singleton] at h
  unfold enqueue
  by_cases hab : a = b
  · simp only [hab, beq_self_eq_true, if_true] at h ⊢
    omega
  · simp only [hab, beq_iff_eq, if_false] at h ⊢
    omega

theorem dequeue_eq_some : dequeue q i = (some a, q') ↔
    ∃ rest, q i = a :: rest ∧ q' = Function.update q i rest := by
  unfold dequeue
  split
  · rename_i hq
    simp [hq]
  · rename_i b rest hq
    simp only [Prod.mk.injEq, Option.some.injEq, hq, List.cons.injEq]
    constructor
    · rintro ⟨rfl, rfl⟩
      exact ⟨rest, ⟨rfl, rfl⟩, rfl⟩
    · rintro ⟨r, ⟨rfl, rfl⟩, rfl⟩
      exact ⟨rfl, rfl⟩

theorem dequeue_of_nil (h : q i = []) : dequeue q i = (none, q) := by
  simp [dequeue, h]

theorem total_dequeue (h : dequeue q i = (some a, q')) : total q' + 1 = total q := by
  obtain ⟨rest, hq, rfl⟩ := dequeue_eq_some.mp h
  have := total_update q i rest
  rw [hq, List.length_cons] at this
  omega

theorem count_dequeue [DecidableEq α] (h : dequeue q i = (some a, q')) (b : α) :
    count q' b + (if a = b then 1 else 0) = count q b := by
  obtain ⟨rest, hq, rfl⟩ := dequeue_eq_some.mp h
  have := count_update q i rest b
  rw [hq, List.count_cons] at this
  by_cases hab : a = b
  · simp only [hab, beq_self_eq_true, if_true] at this ⊢
    omega
  · simp only [hab, beq_iff_eq, if_false] at this ⊢
    omega

/-! ### Empty queues and counted values -/

theorem total_eq_zero : total q = 0 ↔ ∀ i, q i = [] := by
  simp [total, Finset.sum_eq_zero_iff]

end Atom.Lib.Queues

