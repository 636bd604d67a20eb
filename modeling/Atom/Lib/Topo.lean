import Mathlib.Logic.Relation
import Mathlib.Data.List.Nodup

/-!
# Library — topological orders

A graph given by the list of dependencies of each vertex, `deps : α → List α`.  It is
`Acyclic` when no vertex reaches itself along dependencies, and a list is `Topological` when it
lists each vertex at most once and every dependency of a listed vertex before it.

* `Topological.push`: a vertex whose dependencies are all listed may be appended.
* `Topological.transGen`: everything a listed vertex reaches is listed before it.
* `Topological.acyclic`: a topological list of every vertex that has a dependency rules out
  cycles.

Nothing here names a component of the kernel.
-/

namespace Atom.Lib.Topo

open Relation

variable {α : Type*} [DecidableEq α] (deps : α → List α)

/-- `y` is a dependency of `x`. -/
def Edge (x y : α) : Prop := y ∈ deps x

/-- No vertex reaches itself along dependencies. -/
def Acyclic : Prop := ∀ x, ¬TransGen (Edge deps) x x

/-- `order` lists each vertex at most once, and every dependency of a listed vertex before it. -/
structure Topological (order : List α) : Prop where
  nodup : order.Nodup
  before : ∀ x ∈ order, ∀ y ∈ deps x, y ∈ order ∧ order.idxOf y < order.idxOf x

variable {deps}

theorem topological_nil : Topological deps [] := ⟨List.nodup_nil, fun _ h => absurd h List.not_mem_nil⟩

/-- **Push**: a vertex not yet listed whose dependencies are all listed goes last. -/
theorem Topological.push {order : List α} (h : Topological deps order) {x : α} (hx : x ∉ order)
    (hdeps : ∀ y ∈ deps x, y ∈ order) : Topological deps (order ++ [x]) := by
  have hlast : (order ++ [x]).idxOf x = order.length := by
    rw [List.idxOf_append_of_notMem hx, List.idxOf_cons_self, Nat.add_zero]
  refine ⟨List.nodup_append.mpr ⟨h.nodup, List.nodup_singleton x, ?_⟩, fun z hz y hy => ?_⟩
  · intro a ha b hb hab
    rw [List.mem_singleton] at hb
    rw [hab, hb] at ha
    exact hx ha
  rcases List.mem_append.mp hz with hz | hz
  · -- an earlier vertex keeps its place, and so do its dependencies
    obtain ⟨hyo, hlt⟩ := h.before z hz y hy
    rw [List.idxOf_append_of_mem hyo, List.idxOf_append_of_mem hz]
    exact ⟨List.mem_append_left _ hyo, hlt⟩
  · rw [List.mem_singleton] at hz
    subst hz
    have hyo := hdeps y hy
    rw [List.idxOf_append_of_mem hyo, hlast]
    exact ⟨List.mem_append_left _ hyo, List.idxOf_lt_length_of_mem hyo⟩

/-- Everything a listed vertex reaches is listed before it. -/
theorem Topological.transGen {order : List α} (h : Topological deps order) {x y : α}
    (hx : x ∈ order) (hxy : TransGen (Edge deps) x y) : y ∈ order ∧ order.idxOf y < order.idxOf x := by
  induction hxy with
  | single hy => exact h.before x hx _ hy
  | tail _ hyz ih =>
      obtain ⟨hyo, hlt⟩ := ih
      obtain ⟨hzo, hlt'⟩ := h.before _ hyo _ hyz
      exact ⟨hzo, Nat.lt_trans hlt' hlt⟩

/-- **No cycle**: a topological list of every vertex with a dependency leaves no vertex reaching
itself. -/
theorem Topological.acyclic {order : List α} (h : Topological deps order)
    (hcover : ∀ x y, y ∈ deps x → x ∈ order) : Acyclic deps := by
  intro x hxx
  -- a vertex on a cycle has a dependency, so it is listed, before itself
  obtain ⟨y, hxy, -⟩ := TransGen.head'_iff.mp hxx
  exact Nat.lt_irrefl _ (h.transGen (hcover x y hxy) hxx).2

end Atom.Lib.Topo
