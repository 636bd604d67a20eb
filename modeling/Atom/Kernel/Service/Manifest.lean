import Mathlib.Data.Finset.Card
import Atom.Lib.KeyedList
import Atom.Lib.Loop
import Atom.Lib.Topo

/-!
# Services — the startup order

`BootManifest::startup_order` of `kernel/src/service_manager.rs`: a depth-first walk over the
declared services, in the order of their names, that visits the dependencies of a service before
pushing it.  A name met again while it is being visited is a cycle; an undeclared dependency is
an error; either ends the walk at once, with the names being visited left as they are.

The recursion of `visit` is bounded by a `fuel` argument (`visit`, `startupOrderWith`).  Each
level adds a declared name to `visiting`, so one more than the number of services is never
reached (`startupOrderWith_isSome`), and any larger bound gives the same answer
(`startupOrderWith_of_le`); `startupOrder` is the walk with that bound.

What a walk that succeeds keeps (`VisitState.Inv`): the names visited are the names pushed, each
once, each after its dependencies (`Topo.Topological`), all declared; and no name is both being
visited and visited.

* `visit_ok`: a visit that succeeds keeps the invariant, leaves `visiting` as it found it, and
  has visited its name.
* `visit_ok_of_acyclic`: with every dependency declared and no cycle, a visit from a state whose
  names being visited all lead to the name succeeds.
* `startupOrder_topological`: `startup_order` succeeds exactly when every dependency is declared
  and there is no cycle, and then lists every service once, after its dependencies.
-/

namespace Atom

open Lib Relation

/-- `ServiceSpec`. -/
structure ServiceSpec where
  name : String
  binary : String
  capabilities : List String
  dependsOn : List String
  deriving DecidableEq, Repr

/-- `ManifestError`. -/
inductive ManifestError where
  | invalidSection (line : Nat) (content : String)
  | duplicateService (name : String)
  | orphanKeyValue (line : Nat) (content : String)
  | unknownKey (key : String) (line : Nat)
  | missingBinary (name : String)
  | unknownDependency (service dependsOn : String)
  | dependencyCycle (name : String)
  | emptyManifest
  deriving DecidableEq, Repr

/-- `BootManifest`: the services by name in a `BTreeMap`, so in increasing order of name. -/
structure BootManifest where
  services : List (String × ServiceSpec)
  sorted : (services.map Prod.fst).Pairwise (· < ·)

/-- What `visit` threads through the walk: `visiting`, `visited` and `order`. -/
structure VisitState where
  visiting : Finset String
  visited : Finset String
  order : List String

/-- The end of a visit: `name` leaves `visiting`, joins `visited` and is pushed. -/
def VisitState.finish (name : String) (st : VisitState) : VisitState :=
  ⟨st.visiting.erase name, insert name st.visited, st.order ++ [name]⟩

namespace BootManifest

/-- `BootManifest::service`. -/
def service (m : BootManifest) (name : String) : Option ServiceSpec :=
  (KeyedList.lookup Prod.fst m.services name).map Prod.snd

/-- `BootManifest::count`. -/
def count (m : BootManifest) : Nat := m.services.length

/-- `services.contains_key`. -/
def containsKey (m : BootManifest) (name : String) : Bool := (m.service name).isSome

/-- The services `name` depends on, as `visit` follows them: none for an undeclared name. -/
def deps (m : BootManifest) (name : String) : List String :=
  match m.service name with
  | some spec => spec.dependsOn
  | none => []

/-- The declared names. -/
def names (m : BootManifest) : Finset String := (m.services.map Prod.fst).toFinset

/-- Every `depends_on` entry names a declared service. -/
def DepsDeclared (m : BootManifest) : Prop := ∀ name, ∀ dep ∈ m.deps name, m.containsKey dep

/-- One turn of `visit`'s loop over `depends_on`: an undeclared dependency is an error, a
declared one is visited. -/
def visitDep (m : BootManifest) (name : String)
    (visit : String → VisitState → Option (Except ManifestError VisitState)) (dep : String)
    (st : VisitState) : Option (Except ManifestError VisitState) :=
  if !m.containsKey dep then some (.error (.unknownDependency name dep)) else visit dep st

/-- `BootManifest::visit`, its recursion bounded by `fuel` (`none` once the bound is reached). -/
def visit (m : BootManifest) : Nat → String → VisitState → Option (Except ManifestError VisitState)
  | 0, _, _ => none
  | fuel + 1, name, st =>
      if name ∈ st.visiting then some (.error (.dependencyCycle name))
      else if name ∈ st.visited then some (.ok st)
      else
        match Loop.run (m.visitDep name (m.visit fuel)) (m.deps name)
            { st with visiting := insert name st.visiting } with
        | some (.ok st') => some (.ok (st'.finish name))
        | some (.error e) => some (.error e)
        | none => none

/-- One turn of `startup_order`'s loop over the names: a name not yet visited is visited. -/
def visitName (m : BootManifest) (fuel : Nat) (name : String) (st : VisitState) :
    Option (Except ManifestError VisitState) :=
  if name ∉ st.visited then m.visit fuel name st else some (.ok st)

/-- `BootManifest::startup_order`, with the bound `fuel` on the recursion of `visit`. -/
def startupOrderWith (m : BootManifest) (fuel : Nat) : Option (Except ManifestError (List String)) :=
  (Loop.run (m.visitName fuel) (m.services.map Prod.fst) ⟨∅, ∅, []⟩).map
    (Except.map VisitState.order)


/-! ### Declared names -/

theorem containsKey_iff {m : BootManifest} {name : String} : m.containsKey name = true ↔ name ∈ m.names := by
  unfold containsKey service names
  rw [List.mem_toFinset, List.mem_map]
  cases h : KeyedList.lookup Prod.fst m.services name with
  | none =>
      simp only [Option.map_none, Option.isSome_none, Bool.false_eq_true, false_iff, not_exists,
        not_and]
      exact fun b hb hk => KeyedList.lookup_eq_none_iff.mp h b hb hk
  | some b => exact iff_of_true rfl ⟨b, KeyedList.mem_of_lookup h, KeyedList.key_of_lookup h⟩

/-- A name with a dependency is declared. -/
theorem containsKey_of_mem_deps {m : BootManifest} {name dep : String} (h : dep ∈ m.deps name) :
    m.containsKey name := by
  unfold deps at h
  unfold containsKey
  cases hs : m.service name with
  | none => simp [hs] at h
  | some spec => rfl

theorem card_names_le (m : BootManifest) : m.names.card ≤ m.count := by
  simpa [names, count] using List.toFinset_card_le (m.services.map Prod.fst)

end BootManifest

/-! ### What a walk keeps -/

/-- What holds of the walk between two visits that succeeded: the names visited are the names
pushed, each once and after its dependencies, all declared; and no name being visited is
visited. -/
structure VisitState.Inv (m : BootManifest) (st : VisitState) : Prop where
  visited_iff : ∀ x, x ∈ st.visited ↔ x ∈ st.order
  topological : Topo.Topological m.deps st.order
  declared : ∀ x ∈ st.order, m.containsKey x
  fresh : ∀ x ∈ st.visiting, x ∉ st.visited

namespace VisitState.Inv

variable {m : BootManifest} {st st' : VisitState}

theorem empty : (⟨∅, ∅, []⟩ : VisitState).Inv m :=
  ⟨fun _ => by simp, Topo.topological_nil, fun _ h => absurd h List.not_mem_nil, fun _ h => absurd h (Finset.notMem_empty _)⟩

/-- The start of a visit: a name not visited joins `visiting`. -/
theorem start (hi : st.Inv m) {name : String} (hname : name ∉ st.visited) :
    ({ st with visiting := insert name st.visiting } : VisitState).Inv m := by
  refine ⟨hi.visited_iff, hi.topological, hi.declared, fun x hx => ?_⟩
  rcases Finset.mem_insert.mp hx with rfl | hx
  · exact hname
  · exact hi.fresh x hx

/-- The end of a visit: a declared name being visited, whose dependencies are all visited, is
pushed. -/
theorem finish (hi : st.Inv m) {name : String} (hin : name ∈ st.visiting)
    (hdecl : m.containsKey name) (hdeps : ∀ y ∈ m.deps name, y ∈ st.visited) :
    (st.finish name).Inv m := by
  have hnot : name ∉ st.order := fun h => hi.fresh name hin ((hi.visited_iff name).mpr h)
  refine ⟨fun x => ?_, hi.topological.push hnot fun y hy => (hi.visited_iff y).mp (hdeps y hy),
    fun x hx => ?_, fun x hx => ?_⟩
  · simp [VisitState.finish, hi.visited_iff, or_comm]
  · rcases List.mem_append.mp hx with hx | hx
    · exact hi.declared x hx
    · rw [List.mem_singleton.mp hx]
      exact hdecl
  · obtain ⟨hne, hx⟩ := Finset.mem_erase.mp hx
    simp only [VisitState.finish, Finset.mem_insert, not_or]
    exact ⟨hne, hi.fresh x hx⟩

/-- What was visited stays visited while `order` only grows. -/
theorem visited_mono (hi : st.Inv m) (hi' : st'.Inv m) (hpre : st.order <+: st'.order) {x : String}
    (hx : x ∈ st.visited) : x ∈ st'.visited :=
  (hi'.visited_iff x).mpr (hpre.subset ((hi.visited_iff x).mp hx))

end VisitState.Inv

namespace BootManifest

variable {m : BootManifest}

/-! ### One visit -/

/-- A turn of the dependency loop that succeeds visited a declared dependency. -/
theorem visitDep_ok {name dep : String} {visit : String → VisitState → Option (Except ManifestError VisitState)}
    {st st' : VisitState} (h : m.visitDep name visit dep st = some (.ok st')) :
    m.containsKey dep ∧ visit dep st = some (.ok st') := by
  unfold visitDep at h
  by_cases hdecl : m.containsKey dep
  · rw [if_neg (by simp [hdecl])] at h
    exact ⟨hdecl, h⟩
  · rw [if_pos (by simp [hdecl])] at h
    cases h

/-- **A visit that succeeds** keeps the invariant, leaves `visiting` as it found it, has visited
its name, and only pushes names. -/
theorem visit_ok : ∀ {fuel : Nat} {name : String} {st st' : VisitState},
    m.visit fuel name st = some (.ok st') → st.Inv m → m.containsKey name →
    st'.Inv m ∧ st'.visiting = st.visiting ∧ name ∈ st'.visited ∧ st.order <+: st'.order
  | 0, _, _, _, h, _, _ => by cases h
  | fuel + 1, name, st, st', h, hi, hname => by
      unfold visit at h
      by_cases hing : name ∈ st.visiting
      · rw [if_pos hing] at h
        cases h
      rw [if_neg hing] at h
      by_cases hed : name ∈ st.visited
      · rw [if_pos hed] at h
        cases h
        exact ⟨hi, rfl, hed, List.prefix_refl _⟩
      rw [if_neg hed] at h
      -- the loop over the dependencies: each visit, one level down, keeps `visiting` with `name`
      -- in it and visits its dependency
      have hstep : ∀ done dep s s', dep ∈ m.deps name →
          (s.Inv m ∧ s.visiting = insert name st.visiting ∧ st.order <+: s.order ∧
            ∀ d ∈ done, d ∈ s.visited) →
          m.visitDep name (m.visit fuel) dep s = some (.ok s') →
          (s'.Inv m ∧ s'.visiting = insert name st.visiting ∧ st.order <+: s'.order ∧
            ∀ d ∈ done ++ [dep], d ∈ s'.visited) := by
        rintro done dep s s' - ⟨hi₁, hv₁, hpre₁, hdone₁⟩ hs
        obtain ⟨hdecl, hs⟩ := visitDep_ok hs
        obtain ⟨hi₂, hv₂, hdep₂, hpre₂⟩ := visit_ok hs hi₁ hdecl
        refine ⟨hi₂, hv₂.trans hv₁, hpre₁.trans hpre₂, fun d hd => ?_⟩
        rcases List.mem_append.mp hd with hd | hd
        · exact hi₁.visited_mono hi₂ hpre₂ (hdone₁ d hd)
        · rw [List.mem_singleton.mp hd]
          exact hdep₂
      rcases hrun : Loop.run (m.visitDep name (m.visit fuel)) (m.deps name)
          { st with visiting := insert name st.visiting } with _ | e | st₂
      · rw [hrun] at h
        cases h
      · rw [hrun] at h
        cases h
      rw [hrun] at h
      cases h
      obtain ⟨hi₂, hv₂, hpre₂, hdeps₂⟩ := Loop.run_ok_induct _ hstep hrun
        ⟨hi.start hed, rfl, List.prefix_refl _, fun _ h => absurd h List.not_mem_nil⟩
      have hin : name ∈ st₂.visiting := by
        rw [hv₂]
        exact Finset.mem_insert_self name st.visiting
      refine ⟨hi₂.finish hin hname fun y hy => hdeps₂ y (by simpa using hy), ?_, ?_, ?_⟩
      · rw [VisitState.finish, hv₂, Finset.erase_insert hing]
      · exact Finset.mem_insert_self name st₂.visited
      · exact hpre₂.trans (List.prefix_append _ _)

/-- **Every visit returns**: from a state whose names being visited are declared, a bound
larger than the number of declared names not being visited is never reached. -/
theorem visit_isSome : ∀ {fuel : Nat} {name : String} {st : VisitState}, st.Inv m →
    m.containsKey name → st.visiting ⊆ m.names → m.names.card + 1 ≤ st.visiting.card + fuel →
    (m.visit fuel name st).isSome
  | 0, _, st, _, _, hsub, hfuel => by
      have := Finset.card_le_card hsub
      omega
  | fuel + 1, name, st, hi, hname, hsub, hfuel => by
      unfold visit
      by_cases hing : name ∈ st.visiting
      · rw [if_pos hing]
        rfl
      rw [if_neg hing]
      by_cases hed : name ∈ st.visited
      · rw [if_pos hed]
        rfl
      rw [if_neg hed]
      -- one level down, `visiting` has one more declared name
      have hsub' : insert name st.visiting ⊆ m.names :=
        Finset.insert_subset (containsKey_iff.mp hname) hsub
      have hcard : (insert name st.visiting).card = st.visiting.card + 1 :=
        Finset.card_insert_of_notMem hing
      have hstep : ∀ dep ∈ m.deps name, ∀ s : VisitState,
          s.Inv m ∧ s.visiting = insert name st.visiting →
          (m.visitDep name (m.visit fuel) dep s).isSome ∧
            ∀ s', m.visitDep name (m.visit fuel) dep s = some (.ok s') →
              s'.Inv m ∧ s'.visiting = insert name st.visiting := by
        rintro dep - s ⟨hi₁, hv₁⟩
        refine ⟨?_, fun s' hs' => ?_⟩
        · unfold visitDep
          by_cases hdecl : m.containsKey dep
          · rw [if_neg (by simp [hdecl])]
            exact visit_isSome hi₁ hdecl (hv₁ ▸ hsub') (by rw [hv₁, hcard]; omega)
          · rw [if_pos (by simp [hdecl])]
            rfl
        · obtain ⟨hdecl, hs'⟩ := visitDep_ok hs'
          obtain ⟨hi₂, hv₂, -⟩ := visit_ok hs' hi₁ hdecl
          exact ⟨hi₂, hv₂.trans hv₁⟩
      obtain ⟨r, hr⟩ := Option.isSome_iff_exists.mp
        (Loop.run_isSome _ hstep _ ⟨hi.start hed, rfl⟩)
      rw [hr]
      rcases r with e | st₂ <;> rfl

/-- **Without a cycle or an undeclared dependency a visit succeeds**, from a state whose names
being visited all lead to the name visited. -/
theorem visit_ok_of_acyclic (hdecl : m.DepsDeclared) (hacyclic : Topo.Acyclic m.deps) :
    ∀ {fuel : Nat} {name : String} {st : VisitState}, st.Inv m → m.containsKey name →
    st.visiting ⊆ m.names → m.names.card + 1 ≤ st.visiting.card + fuel →
    (∀ v ∈ st.visiting, TransGen (Topo.Edge m.deps) v name) →
    ∃ st', m.visit fuel name st = some (.ok st')
  | 0, _, st, _, _, hsub, hfuel, _ => by
      have := Finset.card_le_card hsub
      omega
  | fuel + 1, name, st, hi, hname, hsub, hfuel, hpath => by
      unfold visit
      -- a name being visited would lie on a cycle
      have hing : name ∉ st.visiting := fun h => hacyclic name (hpath name h)
      rw [if_neg hing]
      by_cases hed : name ∈ st.visited
      · rw [if_pos hed]
        exact ⟨st, rfl⟩
      rw [if_neg hed]
      have hsub' : insert name st.visiting ⊆ m.names :=
        Finset.insert_subset (containsKey_iff.mp hname) hsub
      have hcard : (insert name st.visiting).card = st.visiting.card + 1 :=
        Finset.card_insert_of_notMem hing
      -- each dependency is declared, and every name now being visited leads to it
      have hstep : ∀ dep ∈ m.deps name, ∀ s : VisitState,
          s.Inv m ∧ s.visiting = insert name st.visiting →
          ∃ s', m.visitDep name (m.visit fuel) dep s = some (.ok s') ∧
            s'.Inv m ∧ s'.visiting = insert name st.visiting := by
        rintro dep hdep s ⟨hi₁, hv₁⟩
        have hpath' : ∀ v ∈ s.visiting, TransGen (Topo.Edge m.deps) v dep := by
          intro v hv
          rw [hv₁] at hv
          rcases Finset.mem_insert.mp hv with rfl | hv
          · exact TransGen.single hdep
          · exact TransGen.tail (hpath v hv) hdep
        have hvisit : ∃ s', m.visit fuel dep s = some (.ok s') :=
          visit_ok_of_acyclic hdecl hacyclic hi₁ (hdecl name dep hdep) (hv₁ ▸ hsub')
            (by rw [hv₁, hcard]; omega) hpath'
        obtain ⟨s', hs'⟩ := hvisit
        obtain ⟨hi₂, hv₂, -⟩ := visit_ok hs' hi₁ (hdecl name dep hdep)
        refine ⟨s', ?_, hi₂, hv₂.trans hv₁⟩
        rw [visitDep, if_neg (by simp [hdecl name dep hdep]), hs']
      obtain ⟨st₂, hrun, -⟩ := Loop.run_ok_of _ hstep _ ⟨hi.start hed, rfl⟩
      rw [hrun]
      exact ⟨_, rfl⟩

/-- A visit that returns with a bound returns the same with one more level. -/
theorem visit_succ : ∀ {fuel : Nat} {name : String} {st : VisitState}
    {r : Except ManifestError VisitState}, m.visit fuel name st = some r →
    m.visit (fuel + 1) name st = some r
  | 0, _, _, _, h => by cases h
  | fuel + 1, name, st, r, h => by
      unfold visit at h ⊢
      by_cases hing : name ∈ st.visiting
      · rw [if_pos hing] at h ⊢
        exact h
      rw [if_neg hing] at h ⊢
      by_cases hed : name ∈ st.visited
      · rw [if_pos hed] at h ⊢
        exact h
      rw [if_neg hed] at h ⊢
      -- the loop with one more level answers as the loop did
      have hagree : ∀ dep s r', m.visitDep name (m.visit fuel) dep s = some r' →
          m.visitDep name (m.visit (fuel + 1)) dep s = some r' := by
        intro dep s r' hs
        unfold visitDep at hs ⊢
        split_ifs at hs ⊢
        · exact hs
        · exact visit_succ hs
      rcases hrun : Loop.run (m.visitDep name (m.visit fuel)) (m.deps name)
          { st with visiting := insert name st.visiting } with _ | r₁
      · rw [hrun] at h
        cases h
      · rw [hrun] at h
        rw [Loop.run_of_agree hagree _ _ _ hrun]
        exact h

/-- **The errors of a visit** are an undeclared dependency or a cycle. -/
theorem visit_error : ∀ {fuel : Nat} {name : String} {st : VisitState} {e : ManifestError},
    m.visit fuel name st = some (.error e) →
    (∃ service dep, e = .unknownDependency service dep) ∨ ∃ n, e = .dependencyCycle n
  | 0, _, _, _, h => by cases h
  | fuel + 1, name, st, e, h => by
      unfold visit at h
      by_cases hing : name ∈ st.visiting
      · rw [if_pos hing] at h
        cases h
        exact .inr ⟨name, rfl⟩
      rw [if_neg hing] at h
      by_cases hed : name ∈ st.visited
      · rw [if_pos hed] at h
        cases h
      rw [if_neg hed] at h
      -- an error of the loop is an undeclared dependency or an error of a visit one level down
      have hstep : ∀ dep s e', m.visitDep name (m.visit fuel) dep s = some (.error e') →
          (∃ service dep, e' = .unknownDependency service dep) ∨ ∃ n, e' = .dependencyCycle n := by
        intro dep s e' hs
        unfold visitDep at hs
        split_ifs at hs
        · cases hs
          exact .inl ⟨name, dep, rfl⟩
        · exact visit_error hs
      rcases hrun : Loop.run (m.visitDep name (m.visit fuel)) (m.deps name)
          { st with visiting := insert name st.visiting } with _ | e₁ | st₂
      · rw [hrun] at h
        cases h
      · rw [hrun] at h
        cases h
        exact Loop.run_error _ hstep _ _ _ hrun
      · rw [hrun] at h
        cases h

/-- A visit that returns with a bound returns the same with any larger one. -/
theorem visit_mono {fuel fuel' : Nat} (hle : fuel ≤ fuel') {name : String} {st : VisitState}
    {r : Except ManifestError VisitState} (h : m.visit fuel name st = some r) :
    m.visit fuel' name st = some r := by
  obtain ⟨k, rfl⟩ := Nat.exists_eq_add_of_le hle
  induction k with
  | zero => exact h
  | succ k ih => exact visit_succ (ih (Nat.le_add_right fuel k))

/-! ### The walk over every service -/

/-- What the loop of `startup_order` keeps: the invariant, with nothing being visited. -/
theorem visitName_keeps {fuel : Nat} {name : String} (hname : name ∈ m.services.map Prod.fst)
    {st st' : VisitState} (hi : st.Inv m ∧ st.visiting = ∅)
    (h : m.visitName fuel name st = some (.ok st')) :
    st'.Inv m ∧ st'.visiting = ∅ ∧ name ∈ st'.visited ∧ st.order <+: st'.order := by
  unfold visitName at h
  by_cases hed : name ∈ st.visited
  · rw [if_neg (not_not.mpr hed)] at h
    cases h
    exact ⟨hi.1, hi.2, hed, List.prefix_refl _⟩
  · rw [if_pos hed] at h
    obtain ⟨hi', hv', hname', hpre⟩ :=
      visit_ok h hi.1 (containsKey_iff.mpr (List.mem_toFinset.mpr hname))
    exact ⟨hi', hv'.trans hi.2, hname', hpre⟩

/-- The bound `count + 1` leaves room for every visit from an empty `visiting`. -/
theorem card_bound (m : BootManifest) : m.names.card + 1 ≤ (∅ : Finset String).card + (m.count + 1) := by
  have := m.card_names_le
  rw [Finset.card_empty]
  omega

/-- **The walk returns**: with the bound `count + 1`, no visit runs out of it. -/
theorem startupOrderWith_isSome (m : BootManifest) : (m.startupOrderWith (m.count + 1)).isSome := by
  have hstep : ∀ name ∈ m.services.map Prod.fst, ∀ st : VisitState, st.Inv m ∧ st.visiting = ∅ →
      (m.visitName (m.count + 1) name st).isSome ∧
        ∀ st', m.visitName (m.count + 1) name st = some (.ok st') → st'.Inv m ∧ st'.visiting = ∅ := by
    rintro name hname st ⟨hi, hv⟩
    refine ⟨?_, fun st' h => (visitName_keeps hname ⟨hi, hv⟩ h).imp_right And.left⟩
    unfold visitName
    by_cases hed : name ∈ st.visited
    · rw [if_neg (not_not.mpr hed)]
      rfl
    · rw [if_pos hed]
      exact visit_isSome hi (containsKey_iff.mpr (List.mem_toFinset.mpr hname))
        (by simp [hv]) (hv ▸ m.card_bound)
  unfold startupOrderWith
  rw [Option.isSome_map]
  exact Loop.run_isSome _ hstep _ ⟨VisitState.Inv.empty, rfl⟩

/-- `BootManifest::startup_order`: the walk with a bound on its recursion that it never
reaches. -/
def startupOrder (m : BootManifest) : Except ManifestError (List String) :=
  (m.startupOrderWith (m.count + 1)).get m.startupOrderWith_isSome

/-- Any bound of at least `count + 1` gives `startup_order`'s answer. -/
theorem startupOrderWith_of_le {fuel : Nat} (hle : m.count + 1 ≤ fuel) :
    m.startupOrderWith fuel = some m.startupOrder := by
  have hbound : m.startupOrderWith (m.count + 1) = some m.startupOrder := (Option.some_get _).symm
  unfold startupOrderWith at hbound ⊢
  obtain ⟨r, hr, hmap⟩ := Option.map_eq_some_iff.mp hbound
  -- each turn of the loop answers with the larger bound as it did
  have hagree : ∀ name st r', m.visitName (m.count + 1) name st = some r' →
      m.visitName fuel name st = some r' := by
    intro name st r' h
    unfold visitName at h ⊢
    by_cases hed : name ∈ st.visited
    · rw [if_neg (not_not.mpr hed)] at h ⊢
      exact h
    · rw [if_pos hed] at h ⊢
      exact visit_mono hle h
  rw [Loop.run_of_agree hagree _ _ _ hr, Option.map_some, hmap]

/-- The state the walk of `startup_order` ends in, when it succeeds. -/
theorem startupOrder_ok_run {order : List String} (h : m.startupOrder = .ok order) :
    ∃ st, Loop.run (m.visitName (m.count + 1)) (m.services.map Prod.fst) ⟨∅, ∅, []⟩ = some (.ok st) ∧
      st.order = order := by
  have hbound := startupOrderWith_of_le (m := m) (Nat.le_refl _)
  rw [h] at hbound
  obtain ⟨r, hr, hmap⟩ := Option.map_eq_some_iff.mp hbound
  rcases r with e | st
  · cases hmap
  · exact ⟨st, hr, by simpa [Except.map] using hmap⟩

/-- **What a successful walk lists**: every declared service exactly once, each after the
services it depends on. -/
theorem startupOrder_ok_spec {order : List String} (h : m.startupOrder = .ok order) :
    order.Nodup ∧ (∀ name, name ∈ order ↔ m.containsKey name) ∧
      Topo.Topological m.deps order := by
  obtain ⟨st, hrun, rfl⟩ := startupOrder_ok_run h
  obtain ⟨hi, -, hall⟩ := Loop.run_ok_induct
    (fun done s => s.Inv m ∧ s.visiting = ∅ ∧ ∀ d ∈ done, d ∈ s.visited)
    (fun done name s s' hname ⟨hi, hv, hdone⟩ hs => by
      obtain ⟨hi', hv', hname', hpre⟩ := visitName_keeps hname ⟨hi, hv⟩ hs
      refine ⟨hi', hv', fun d hd => ?_⟩
      rcases List.mem_append.mp hd with hd | hd
      · exact hi.visited_mono hi' hpre (hdone d hd)
      · rw [List.mem_singleton.mp hd]
        exact hname')
    hrun ⟨VisitState.Inv.empty, rfl, fun _ h => absurd h List.not_mem_nil⟩
  refine ⟨hi.topological.nodup, fun name => ⟨hi.declared name, fun hname => ?_⟩, hi.topological⟩
  -- a declared name is one of the names the loop went over
  exact (hi.visited_iff name).mp
    (hall name (List.mem_append_right _ (List.mem_toFinset.mp (containsKey_iff.mp hname))))

/-- **The walk succeeds exactly without an undeclared dependency or a cycle.** -/
theorem startupOrder_ok_iff :
    (∃ order, m.startupOrder = .ok order) ↔ m.DepsDeclared ∧ Topo.Acyclic m.deps := by
  constructor
  · rintro ⟨order, h⟩
    obtain ⟨-, hmem, htopo⟩ := startupOrder_ok_spec h
    -- a name with a dependency is declared, so listed, and its dependencies with it
    have hcover : ∀ x y, y ∈ m.deps x → x ∈ order := fun x y hy =>
      (hmem x).mpr (containsKey_of_mem_deps hy)
    exact ⟨fun x y hy => (hmem y).mp (htopo.before x (hcover x y hy) y hy).1,
      htopo.acyclic hcover⟩
  · rintro ⟨hdecl, hacyclic⟩
    have hstep : ∀ name ∈ m.services.map Prod.fst, ∀ st : VisitState,
        st.Inv m ∧ st.visiting = ∅ →
        ∃ st', m.visitName (m.count + 1) name st = some (.ok st') ∧ st'.Inv m ∧ st'.visiting = ∅ := by
      rintro name hname st ⟨hi, hv⟩
      have hdecl' := containsKey_iff.mpr (List.mem_toFinset.mpr hname)
      obtain ⟨st', hst'⟩ : ∃ st', m.visitName (m.count + 1) name st = some (.ok st') := by
        unfold visitName
        by_cases hed : name ∈ st.visited
        · rw [if_neg (not_not.mpr hed)]
          exact ⟨st, rfl⟩
        · rw [if_pos hed]
          exact visit_ok_of_acyclic hdecl hacyclic hi hdecl' (by simp [hv]) (hv ▸ m.card_bound)
            (by simp [hv])
      obtain ⟨hi', hv', -⟩ := visitName_keeps hname ⟨hi, hv⟩ hst'
      exact ⟨st', hst', hi', hv'⟩
    obtain ⟨st, hrun, -⟩ := Loop.run_ok_of _ hstep _ ⟨VisitState.Inv.empty, rfl⟩
    refine ⟨st.order, ?_⟩
    have hbound : m.startupOrderWith (m.count + 1) = some (.ok st.order) := by
      rw [startupOrderWith, hrun]
      rfl
    rw [startupOrderWith_of_le (Nat.le_refl _)] at hbound
    exact Option.some_injective _ hbound

/-- **The errors of `startup_order`** are an undeclared dependency or a cycle. -/
theorem startupOrder_error {e : ManifestError} (h : m.startupOrder = .error e) :
    (∃ service dep, e = .unknownDependency service dep) ∨ ∃ name, e = .dependencyCycle name := by
  have hbound := startupOrderWith_of_le (m := m) (Nat.le_refl _)
  rw [h] at hbound
  obtain ⟨r, hr, hmap⟩ := Option.map_eq_some_iff.mp hbound
  rcases r with e' | st
  · cases hmap
    refine Loop.run_error (fun e => (∃ service dep, e = .unknownDependency service dep) ∨
      ∃ name, e = .dependencyCycle name) (fun name st e' hs => ?_) _ _ _ hr
    unfold visitName at hs
    by_cases hed : name ∈ st.visited
    · rw [if_neg (not_not.mpr hed)] at hs
      cases hs
    · rw [if_pos hed] at hs
      exact visit_error hs
  · cases hmap

/-- **`startup_order` is a topological sort.**  The walk returns, whatever bound of at least
`count + 1` is put on its recursion, always with the same answer; it succeeds exactly when every
dependency is declared and there is no cycle, and then lists every declared service exactly
once, each after every service it depends on; otherwise it fails with an undeclared dependency
or a cycle. -/
theorem startupOrder_topological (m : BootManifest) :
    (∀ fuel, m.count + 1 ≤ fuel → m.startupOrderWith fuel = some m.startupOrder) ∧
    ((∃ order, m.startupOrder = .ok order) ↔ m.DepsDeclared ∧ Topo.Acyclic m.deps) ∧
    (∀ order, m.startupOrder = .ok order →
      order.Nodup ∧ (∀ name, name ∈ order ↔ m.containsKey name) ∧
      ∀ name ∈ order, ∀ dep ∈ m.deps name, dep ∈ order ∧ order.idxOf dep < order.idxOf name) ∧
    (∀ e, m.startupOrder = .error e →
      (∃ service dep, e = .unknownDependency service dep) ∨ ∃ name, e = .dependencyCycle name) := by
  refine ⟨fun _ hle => startupOrderWith_of_le hle, startupOrder_ok_iff, fun order h => ?_,
    fun _ h => startupOrder_error h⟩
  obtain ⟨hnodup, hmem, htopo⟩ := startupOrder_ok_spec h
  exact ⟨hnodup, hmem, htopo.before⟩

/-- The services of `EMBEDDED_BOOT_MANIFEST`, as the manifest parser reads them. -/
def embedded : BootManifest where
  services :=
    [("fs_server", ⟨"fs_server", "/init/fs.elf", ["MemRegionCap", "IPCPortCap"], ["storage_driver"]⟩),
      ("storage_driver", ⟨"storage_driver", "/init/nvme_driver.elf",
        ["IRQCap:33", "DeviceCap:0000:01:00.0", "DMABufferCap"], []⟩),
      ("ui_shell", ⟨"ui_shell", "/init/ui_shell.elf", ["FrameBufferCap", "PointerCap"], []⟩)]
  sorted := by decide

example : embedded.startupOrder = .ok ["storage_driver", "fs_server", "ui_shell"] := by
  decide

end BootManifest

/-! ### Building the manager -/

/-- `ServiceState`. -/
inductive ServiceState where
  | pending
  | ready
  | failed
  deriving DecidableEq, Repr

/-- `ServiceRuntime`. -/
structure ServiceRuntime where
  state : ServiceState
  grantedCapabilities : List String
  deriving DecidableEq, Repr

/-- `ServiceManager`: the manifest, the startup plan and the registry by name. -/
structure ServiceManager where
  manifest : BootManifest
  plan : List String
  registry : List (String × ServiceRuntime)

/-- `ServiceManager::build`: an empty manifest is refused; otherwise the plan is the startup
order, and every service is registered as pending with the capabilities its manifest grants. -/
def ServiceManager.build (manifest : BootManifest) : Except ManifestError ServiceManager :=
  if manifest.count = 0 then .error .emptyManifest
  else
    match manifest.startupOrder with
    | .error e => .error e
    | .ok plan =>
        .ok ⟨manifest, plan, manifest.services.map fun (name, spec) =>
          (name, ⟨.pending, spec.capabilities⟩)⟩

end Atom
