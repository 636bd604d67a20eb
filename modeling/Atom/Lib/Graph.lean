import Mathlib.Data.Finmap

/-!
# Library — reachability through adjacency lists kept in a finite map

A store `m : Finmap (fun _ : κ => ν)` whose values name other keys through `adj : ν → List κ`,
as a tree of records keeps the keys of each record's children.  `Reach adj m x y` says that `y`
is reached from `x` along these lists, every vertex on the way a key of `m`.

A walk that deletes each vertex as it visits it, and then walks on from its successors over what
is left, rests on three facts:

* `reach_root_iff`: from a present root, the reachable vertices are the root and what its
  successors reach once the root is deleted;
* `reachFrom_cons_iff`: deleting what the first source reaches leaves every other path whole,
  so the remaining sources reach over what is left exactly the rest of what they reached;
* `Removed.trans`: deleting two sets one after the other deletes their union.

Where each record also names its parent (`par : ν → Option κ`) and the two links agree
(`ChildrenAgree`), reaching along children lists is descending along parent links
(`reach_iff_descends`).
-/

namespace Atom.Lib.Graph

variable {κ ν : Type*} [DecidableEq κ]

/-- A finite map whose values carry adjacency lists. -/
abbrev Store (κ ν : Type*) := Finmap fun _ : κ => ν

variable (adj : ν → List κ)

/-- `y` is reachable from `x` in `m`. -/
inductive Reach (m : Store κ ν) (x : κ) : κ → Prop
  | refl : x ∈ m → Reach m x x
  | tail {y z : κ} {v : ν} : Reach m x y → m.lookup y = some v → z ∈ adj v → z ∈ m → Reach m x z

/-- `y` is reachable in `m` from one of `cs`. -/
def ReachFrom (m : Store κ ν) (cs : List κ) (y : κ) : Prop := ∃ c ∈ cs, Reach adj m c y

/-- `m'` is `m` with the keys satisfying `R` deleted. -/
def Removed (m' m : Store κ ν) (R : κ → Prop) : Prop :=
  ∀ k, (R k → m'.lookup k = none) ∧ (¬R k → m'.lookup k = m.lookup k)

variable {adj} {m m' m₁ m₂ : Store κ ν} {x y z c : κ} {v : ν}

/-! ### Paths -/

theorem Reach.mem_left (h : Reach adj m x y) : x ∈ m := by
  induction h with
  | refl hx => exact hx
  | tail _ _ _ _ ih => exact ih

theorem Reach.mem (h : Reach adj m x y) : y ∈ m := by
  cases h with
  | refl hx => exact hx
  | tail _ _ _ hz => exact hz

theorem Reach.trans (h₁ : Reach adj m x y) (h₂ : Reach adj m y z) : Reach adj m x z := by
  induction h₂ with
  | refl => exact h₁
  | tail _ hv hz hzm ih => exact .tail ih hv hz hzm

/-- A path may start with an edge. -/
theorem Reach.head (hx : m.lookup x = some v) (hy : y ∈ adj v) (h : Reach adj m y z) :
    Reach adj m x z :=
  (Reach.tail (.refl (Finmap.mem_of_lookup_eq_some hx)) hx hy h.mem_left).trans h

/-- A path through a smaller store is a path through the larger one. -/
theorem Reach.mono (hsub : ∀ k w, m'.lookup k = some w → m.lookup k = some w)
    (h : Reach adj m' x y) : Reach adj m x y := by
  have hmem : ∀ k, k ∈ m' → k ∈ m := fun k hk => by
    obtain ⟨w, hw⟩ := Finmap.mem_iff.mp hk
    exact Finmap.mem_of_lookup_eq_some (hsub k w hw)
  induction h with
  | refl hx => exact .refl (hmem _ hx)
  | tail _ hv hz hzm ih => exact .tail ih (hsub _ _ hv) hz (hmem _ hzm)

theorem not_reach_of_not_mem (hx : x ∉ m) : ¬Reach adj m x y := fun h => hx h.mem_left

/-! ### Deleting keys -/

theorem Removed.mem_iff {R : κ → Prop} (h : Removed m' m R) : y ∈ m' ↔ y ∈ m ∧ ¬R y := by
  by_cases hR : R y
  · simp [Finmap.lookup_eq_none.mp ((h y).1 hR), hR]
  · simp only [Finmap.mem_iff, (h y).2 hR, hR, not_false_eq_true, and_true]

theorem Removed.lookup_of_some {R : κ → Prop} (h : Removed m' m R) (hy : m'.lookup y = some v) :
    m.lookup y = some v := by
  by_cases hR : R y
  · simp [(h y).1 hR] at hy
  · rwa [← (h y).2 hR]

theorem removed_self : Removed m m fun _ => False := fun _ => ⟨False.elim, fun _ => rfl⟩

theorem removed_erase (x : κ) : Removed (m.erase x) m (· = x) := fun _ =>
  ⟨fun hk => hk ▸ Finmap.lookup_erase x m, fun hk => Finmap.lookup_erase_ne hk⟩

theorem Removed.trans {R₁ R₂ : κ → Prop} (h₁ : Removed m₁ m R₁) (h₂ : Removed m₂ m₁ R₂) :
    Removed m₂ m fun k => R₁ k ∨ R₂ k := by
  intro k
  refine ⟨fun hk => ?_, fun hk => ?_⟩
  · by_cases hk₂ : R₂ k
    · exact (h₂ k).1 hk₂
    · rw [(h₂ k).2 hk₂]
      exact (h₁ k).1 (hk.resolve_right hk₂)
  · rw [not_or] at hk
    rw [(h₂ k).2 hk.2, (h₁ k).2 hk.1]

theorem Removed.congr {R S : κ → Prop} (h : Removed m' m R) (hRS : ∀ k, R k ↔ S k) :
    Removed m' m S := fun k => by simpa only [hRS] using h k

/-- Deleting absent keys changes nothing. -/
theorem removed_of_not_mem {R : κ → Prop} (hR : ∀ k, R k → k ∉ m) : Removed m m R := fun k =>
  ⟨fun hk => Finmap.lookup_eq_none.mpr (hR k hk), fun _ => rfl⟩

theorem Removed.subset {R : κ → Prop} (h : Removed m' m R) : m'.keys ⊆ m.keys := fun k hk => by
  rw [Finmap.mem_keys] at hk ⊢
  exact (h.mem_iff.mp hk).1

/-! ### Finite maps -/

theorem lookup_insert_eq_ite (m : Store κ ν) (a k : κ) (b : ν) :
    (m.insert a b).lookup k = if k = a then some b else m.lookup k := by
  split_ifs with hk
  · rw [hk, Finmap.lookup_insert]
  · exact Finmap.lookup_insert_of_ne m hk

theorem erase_of_not_mem (hx : x ∉ m) : m.erase x = m :=
  Finmap.ext_lookup fun k => by
    by_cases hk : k = x
    · rw [hk, Finmap.lookup_erase, Finmap.lookup_eq_none.mpr hx]
    · exact Finmap.lookup_erase_ne hk

theorem insert_erase_of_lookup (hx : m.lookup x = some v) : (m.erase x).insert x v = m :=
  Finmap.ext_lookup fun k => by
    rw [lookup_insert_eq_ite]
    split_ifs with hk
    · rw [hk, hx]
    · exact Finmap.lookup_erase_ne hk

/-! ### Walking by deletion -/

/-- **Unfolding at the root**: `x` reaches itself, and through each successor what that
successor reaches without passing through `x` again. -/
theorem reach_root_iff (hx : m.lookup x = some v) :
    Reach adj m x y ↔ y = x ∨ ReachFrom adj (m.erase x) (adj v) y := by
  constructor
  · intro h
    induction h with
    | refl => exact .inl rfl
    | @tail y z w _ hy hz hzm ih =>
        by_cases hzx : z = x
        · exact .inl hzx
        have hz' : z ∈ m.erase x := Finmap.mem_erase.mpr ⟨hzx, hzm⟩
        rcases ih with rfl | ⟨c, hc, hcy⟩
        · rw [hx, Option.some_inj] at hy
          exact .inr ⟨z, hy ▸ hz, .refl hz'⟩
        · have hyx : y ≠ x := (Finmap.mem_erase.mp hcy.mem).1
          exact .inr ⟨c, hc, .tail hcy ((Finmap.lookup_erase_ne hyx).trans hy) hz hz'⟩
  · rintro (rfl | ⟨c, hc, hcy⟩)
    · exact .refl (Finmap.mem_of_lookup_eq_some hx)
    · refine Reach.head hx hc (hcy.mono fun k w hk => ?_)
      exact (removed_erase x).lookup_of_some hk

/-- **Deleting a reachable set**: with `m'` the store `m` less what `x` reaches, what `c`
reaches in `m` is reached from `x`, or from `c` in `m'`. -/
theorem reach_split (hm' : Removed m' m (Reach adj m x)) (h : Reach adj m c y) :
    Reach adj m x y ∨ Reach adj m' c y := by
  induction h with
  | refl hc =>
      by_cases hx : Reach adj m x c
      · exact .inl hx
      · exact .inr (.refl (hm'.mem_iff.mpr ⟨hc, hx⟩))
  | @tail y z w _ hy hz hzm ih =>
      rcases ih with hxy | hcy
      · exact .inl (.tail hxy hy hz hzm)
      by_cases hxz : Reach adj m x z
      · exact .inl hxz
      have hy' : m'.lookup y = m.lookup y := (hm' y).2 (hm'.mem_iff.mp hcy.mem).2
      exact .inr (.tail hcy (hy'.trans hy) hz (hm'.mem_iff.mpr ⟨hzm, hxz⟩))

@[simp] theorem reachFrom_nil : ¬ReachFrom adj m [] y := by simp [ReachFrom]

/-- The sources of a walk, the first one walked and deleted. -/
theorem reachFrom_cons_iff {cs : List κ} (hm' : Removed m' m (Reach adj m c)) :
    ReachFrom adj m (c :: cs) y ↔ Reach adj m c y ∨ ReachFrom adj m' cs y := by
  constructor
  · rintro ⟨d, hd, hdy⟩
    rcases List.mem_cons.mp hd with rfl | hd
    · exact .inl hdy
    · exact (reach_split hm' hdy).imp_right fun h => ⟨d, hd, h⟩
  · rintro (h | ⟨d, hd, hdy⟩)
    · exact ⟨c, List.mem_cons_self, h⟩
    · exact ⟨d, List.mem_cons_of_mem _ hd, hdy.mono fun k w hk => hm'.lookup_of_some hk⟩

/-- An absent first source reaches nothing. -/
theorem reachFrom_cons_of_not_mem {cs : List κ} (hc : c ∉ m) :
    ReachFrom adj m (c :: cs) y ↔ ReachFrom adj m cs y := by
  constructor
  · rintro ⟨d, hd, hdy⟩
    rcases List.mem_cons.mp hd with rfl | hd
    · exact absurd hdy (not_reach_of_not_mem hc)
    · exact ⟨d, hd, hdy⟩
  · rintro ⟨d, hd, hdy⟩
    exact ⟨d, List.mem_cons_of_mem _ hd, hdy⟩

/-! ### Children lists and parent links -/

variable (adj) (par : ν → Option κ)

/-- `y` descends from `x` in `m`: the parent links from `y` lead, through keys of `m`, to `x`. -/
inductive Descends (m : Store κ ν) (x : κ) : κ → Prop
  | child {y : κ} {w : ν} : m.lookup y = some w → par w = some x → Descends m x y
  | grand {y p : κ} {w : ν} : m.lookup y = some w → par w = some p → Descends m x p →
      Descends m x y

/-- The children lists and the parent links of `m` say the same: a present child of `p` has
parent `p`, and a present record whose parent is present is in that parent's children. -/
structure ChildrenAgree (m : Store κ ν) : Prop where
  parent_of_child : ∀ p pv ch cv, m.lookup p = some pv → ch ∈ adj pv → m.lookup ch = some cv →
    par cv = some p
  child_of_parent : ∀ d dv p pv, m.lookup d = some dv → par dv = some p → m.lookup p = some pv →
    d ∈ adj pv

variable {adj par}

theorem Descends.mem (h : Descends par m x y) : y ∈ m := by
  cases h with
  | child hy _ => exact Finmap.mem_of_lookup_eq_some hy
  | grand hy _ _ => exact Finmap.mem_of_lookup_eq_some hy

/-- **Reaching is descending**: where the links agree, what a present `x` reaches along the
children lists is `x` and the records that descend from it. -/
theorem reach_iff_descends (hm : ChildrenAgree adj par m) (hx : x ∈ m) :
    Reach adj m x y ↔ y = x ∨ Descends par m x y := by
  constructor
  · intro h
    induction h with
    | refl => exact .inl rfl
    | @tail y z w _ hy hz hzm ih =>
        obtain ⟨zv, hzv⟩ := Finmap.mem_iff.mp hzm
        have hpar := hm.parent_of_child y w z zv hy hz hzv
        rcases ih with rfl | hd
        · exact .inr (.child hzv hpar)
        · exact .inr (.grand hzv hpar hd)
  · rintro (rfl | hd)
    · exact .refl hx
    induction hd with
    | @child y w hy hpar =>
        obtain ⟨xv, hxv⟩ := Finmap.mem_iff.mp hx
        exact .tail (.refl hx) hxv (hm.child_of_parent y w x xv hy hpar hxv)
          (Finmap.mem_of_lookup_eq_some hy)
    | @grand y p w hy hpar hp ih =>
        obtain ⟨pv, hpv⟩ := Finmap.mem_iff.mp hp.mem
        exact .tail ih hpv (hm.child_of_parent y w p pv hy hpar hpv) (Finmap.mem_of_lookup_eq_some hy)

end Atom.Lib.Graph
