import Mathlib.Logic.Relation
import Mathlib.Data.Finset.Card
import Mathlib.Logic.Function.Basic
import Mathlib.Data.Nat.Find

/-!
# Library — chasing a partial successor function

A partial function `f : α → Option α` is a graph in which every vertex has at most one
successor (`Edge f`).  `chase f t n x` follows it from `x` over at most `n` vertices and says
whether it meets `t`: the loop of a cycle check whose steps are bounded by a count.

* `chase_eq_true_iff`: once `n` exceeds the number of vertices that have a successor, the chase
  meets `t` exactly when `t` is reachable from `x`.  The first visit to `t` comes before any
  vertex repeats (`exists_iter_le_card`).
* `transGen_update_self_iff`: giving `c` the successor `y` closes a cycle through `c` exactly when
  `y` reaches `c`; a walk that stops at `c` never uses `c`'s own edge (`reflTransGen_update_iff`).
* `Acyclic.mono`, `Acyclic.update`: removing edges keeps a graph acyclic, and so does an edge
  from `c` to a vertex that does not reach `c`.
-/

namespace Atom.Lib.Chain

open Relation

variable {α : Type*}

/-- `y` is the successor of `x`. -/
def Edge (f : α → Option α) (x y : α) : Prop := f x = some y

/-- No vertex reaches itself in one step or more. -/
def Acyclic (f : α → Option α) : Prop := ∀ x, ¬ TransGen (Edge f) x x

/-- The vertex `k` steps after `x`, if the walk gets that far. -/
def iter (f : α → Option α) : Nat → α → Option α
  | 0, x => some x
  | k + 1, x => (f x).bind (iter f k)

/-- At most `n` vertices from the given one on, stopping at `t` or where `f` has no successor. -/
def chase [DecidableEq α] (f : α → Option α) (t : α) : Nat → Option α → Bool
  | 0, _ => false
  | _ + 1, none => false
  | n + 1, some x => decide (x = t) || chase f t n (f x)

variable {f g : α → Option α} {x y t : α}

/-! ### Walks as iterates -/

theorem iter_succ' (k : Nat) (x : α) : iter f (k + 1) x = (iter f k x).bind f := by
  induction k generalizing x with
  | zero => simp [iter]
  | succ k ih =>
      show (f x).bind (iter f (k + 1)) = ((f x).bind (iter f k)).bind f
      rw [Option.bind_assoc]
      congr 1
      funext y
      exact ih y

theorem iter_add (a b : Nat) (x : α) : iter f (a + b) x = (iter f a x).bind (iter f b) := by
  induction a generalizing x with
  | zero => simp [iter]
  | succ a ih =>
      rw [Nat.succ_add]
      show (f x).bind (iter f (a + b)) = ((f x).bind (iter f a)).bind (iter f b)
      rw [Option.bind_assoc]
      congr 1
      funext y
      exact ih y

theorem reflTransGen_iff_iter : ReflTransGen (Edge f) x t ↔ ∃ k, iter f k x = some t := by
  constructor
  · intro h
    induction h with
    | refl => exact ⟨0, rfl⟩
    | tail _ hbc ih =>
        obtain ⟨k, hk⟩ := ih
        exact ⟨k + 1, by rw [iter_succ', hk]; exact hbc⟩
  · rintro ⟨k, hk⟩
    induction k generalizing x with
    | zero =>
        simp only [iter, Option.some.injEq] at hk
        subst hk
        exact .refl
    | succ k ih =>
        cases hx : f x with
        | none => simp [iter, hx] at hk
        | some y =>
            have hk' : iter f k y = some t := by simpa [iter, hx] using hk
            exact .head hx (ih hk')

/-- A walk that gets `k` steps far got every shorter distance. -/
theorem iter_isSome_of_le {j k : Nat} (hjk : j ≤ k) (hk : iter f k x = some t) :
    ∃ v, iter f j x = some v := by
  have hsplit := iter_add (f := f) j (k - j) x
  rw [Nat.add_sub_cancel' hjk, hk] at hsplit
  cases hj : iter f j x with
  | none => rw [hj] at hsplit; cases hsplit
  | some v => exact ⟨v, rfl⟩

/-- **The first visit comes before any repeat**: the vertices a walk passes before it first
meets `t` are distinct, and each has a successor, so there are at most as many of them as
vertices with a successor. -/
theorem exists_iter_le_card (D : Finset α) (hD : ∀ v w, f v = some w → v ∈ D)
    (h : ∃ k, iter f k x = some t) : ∃ k ≤ D.card, iter f k x = some t := by
  classical
  let k := Nat.find h
  have hk : iter f k x = some t := Nat.find_spec h
  have hmin : ∀ j < k, iter f j x ≠ some t := fun j hj => Nat.find_min h hj
  refine ⟨k, ?_, hk⟩
  -- each vertex before the first visit has a successor
  have hstep : ∀ j < k, ∃ v w, iter f j x = some v ∧ f v = some w := by
    intro j hj
    obtain ⟨w, hw⟩ := iter_isSome_of_le (Nat.succ_le_of_lt hj) hk
    rw [iter_succ'] at hw
    cases hv : iter f j x with
    | none => rw [hv] at hw; cases hw
    | some v => exact ⟨v, w, rfl, by rwa [hv] at hw⟩
  -- two of them that coincide would give an earlier visit
  have hinj : ∀ i < k, ∀ j < k, i < j → iter f i x ≠ iter f j x := by
    intro i hi j hj hij he
    have hearly : iter f (i + (k - j)) x = some t := by
      rw [iter_add, he, ← iter_add, Nat.add_sub_cancel' hj.le, hk]
    exact hmin _ (by omega) hearly
  have hcard : (Finset.range k).card ≤ D.card := by
    refine Finset.card_le_card_of_injOn (fun j => (iter f j x).getD x) ?_ ?_
    · intro j hj
      obtain ⟨v, w, hv, hw⟩ := hstep j (Finset.mem_range.mp hj)
      simp only [hv, Option.getD_some]
      exact hD v w hw
    · intro i hi j hj he
      obtain ⟨v, -, hv, -⟩ := hstep i (Finset.mem_range.mp hi)
      obtain ⟨v', -, hv', -⟩ := hstep j (Finset.mem_range.mp hj)
      simp only [hv, hv', Option.getD_some] at he
      subst he
      rcases Nat.lt_trichotomy i j with hij | rfl | hji
      · exact absurd (hv.trans hv'.symm) (hinj i (Finset.mem_range.mp hi) j (Finset.mem_range.mp hj) hij)
      · rfl
      · exact absurd (hv'.trans hv.symm) (hinj j (Finset.mem_range.mp hj) i (Finset.mem_range.mp hi) hji)
  simpa using hcard

/-! ### The chase -/

section Chase

variable [DecidableEq α]

theorem chase_none (t : α) (n : Nat) : chase f t n none = false := by
  cases n <;> rfl

theorem chase_iff_iter (t : α) (n : Nat) (x : α) :
    chase f t n (some x) = true ↔ ∃ k < n, iter f k x = some t := by
  induction n generalizing x with
  | zero => simp [chase]
  | succ n ih =>
      simp only [chase, Bool.or_eq_true, decide_eq_true_eq]
      cases hx : f x with
      | none =>
          rw [chase_none]
          constructor
          · rintro (rfl | h)
            · exact ⟨0, Nat.succ_pos _, rfl⟩
            · cases h
          · rintro ⟨k, -, he⟩
            cases k with
            | zero => exact .inl (by simpa [iter] using he)
            | succ k => simp [iter, hx] at he
      | some y =>
          rw [ih y]
          constructor
          · rintro (rfl | ⟨k, hk, he⟩)
            · exact ⟨0, Nat.succ_pos _, rfl⟩
            · exact ⟨k + 1, by omega, by simp [iter, hx, he]⟩
          · rintro ⟨k, hk, he⟩
            cases k with
            | zero => exact .inl (by simpa [iter] using he)
            | succ k => exact .inr ⟨k, by omega, by simpa [iter, hx] using he⟩

/-- **The bounded chase decides reachability** once its bound exceeds the number of vertices
with a successor. -/
theorem chase_eq_true_iff (D : Finset α) (hD : ∀ v w, f v = some w → v ∈ D) {n : Nat}
    (hn : D.card < n) (x t : α) : chase f t n (some x) = true ↔ ReflTransGen (Edge f) x t := by
  rw [chase_iff_iter, reflTransGen_iff_iter]
  constructor
  · rintro ⟨k, -, hk⟩
    exact ⟨k, hk⟩
  · intro h
    obtain ⟨k, hk, he⟩ := exists_iter_le_card D hD h
    exact ⟨k, by omega, he⟩

end Chase

/-! ### Changing one successor -/

section Update

variable [DecidableEq α]

/-- A walk to `c` depends on no successor of `c`. -/
theorem reflTransGen_to_of_agree (c : α) (hfg : ∀ v, v ≠ c → f v = g v)
    (h : ReflTransGen (Edge f) x c) : ReflTransGen (Edge g) x c := by
  induction h using ReflTransGen.head_induction_on with
  | refl => exact .refl
  | @head a b hab _ ih =>
      by_cases ha : a = c
      · subst ha
        exact .refl
      · exact .head (show g a = some b from (hfg a ha) ▸ hab) ih

theorem reflTransGen_update_iff (c : α) (v : Option α) :
    ReflTransGen (Edge (Function.update f c v)) x c ↔ ReflTransGen (Edge f) x c :=
  ⟨reflTransGen_to_of_agree c fun _ hw => Function.update_of_ne hw _ _,
    reflTransGen_to_of_agree c fun _ hw => (Function.update_of_ne hw _ _).symm⟩

/-- **Closing a cycle**: giving `c` the successor `y` makes a cycle through `c` exactly when `y`
reaches `c`. -/
theorem transGen_update_self_iff (c y : α) :
    TransGen (Edge (Function.update f c (some y))) c c ↔ ReflTransGen (Edge f) y c := by
  rw [TransGen.head'_iff]
  constructor
  · rintro ⟨z, hz, h⟩
    have hzy : z = y := by simpa [Edge] using hz.symm
    subst hzy
    exact (reflTransGen_update_iff c _).mp h
  · intro h
    exact ⟨y, by simp [Edge], (reflTransGen_update_iff c _).mpr h⟩

/-- A path of the graph with `c`'s successor changed is one of the old graph, or passes through
`c`. -/
theorem transGen_update_cases (c : α) (v : Option α) {a b : α}
    (h : TransGen (Edge (Function.update f c v)) a b) :
    TransGen (Edge f) a b ∨
      (ReflTransGen (Edge (Function.update f c v)) a c ∧
        TransGen (Edge (Function.update f c v)) c b) := by
  induction h with
  | @single b hab =>
      by_cases ha : a = c
      · subst ha
        exact .inr ⟨.refl, .single hab⟩
      · exact .inl (.single (by rwa [Edge, Function.update_of_ne ha] at hab))
  | @tail b d _ hbd ih =>
      rcases ih with h | ⟨hac, hcb⟩
      · by_cases hb : b = c
        · subst hb
          exact .inr ⟨(reflTransGen_update_iff b v).mpr h.to_reflTransGen, .single hbd⟩
        · exact .inl (.tail h (by rwa [Edge, Function.update_of_ne hb] at hbd))
      · exact .inr ⟨hac, .tail hcb hbd⟩

/-- An edge from `c` to a vertex that does not reach `c` keeps a graph acyclic. -/
theorem Acyclic.update (hf : Acyclic f) {c y : α} (hy : ¬ ReflTransGen (Edge f) y c) :
    Acyclic (Function.update f c (some y)) := by
  intro a ha
  rcases transGen_update_cases c (some y) ha with h | ⟨hac, hca⟩
  · exact hf a h
  · exact hy ((transGen_update_self_iff c y).mp (hca.trans_left hac))

end Update

/-- Removing edges keeps a graph acyclic. -/
theorem Acyclic.mono (hf : Acyclic f) (hgf : ∀ v w, g v = some w → f v = some w) : Acyclic g :=
  fun v h => hf v (TransGen.mono (fun a b hab => hgf a b hab) v v h)

end Atom.Lib.Chain
