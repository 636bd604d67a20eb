import Mathlib.Logic.Basic

/-!
# Library — loops that stop at the first error

`run f l s` runs the step `f` on each element of `l` in turn, threading a state: a step returns
the next state, an error, which ends the loop, or `none` when it does not return (a recursion
that ran out of its bound).  This is a `for` loop whose body uses `?`.

The three rules the loops of this development are proved by:

* `run_ok_induct`: an invariant indexed by the elements done so far, kept by every step that
  succeeds, holds when the loop succeeds;
* `run_ok_of`: a loop whose every step succeeds from the invariant, and keeps it, succeeds;
* `run_isSome`: a loop whose every step returns from the invariant, and keeps it when it
  succeeds, returns.

A loop whose body may panic (`List.foldlM` in `Option`) is related to a total one by
`foldlM_simulates`: a step that returns from related states, and relates the states after, makes
the whole loop return.

`run_of_agree` carries a loop's answer over to steps that answer wherever these did, and
`run_error` traces its error back to a step.

A loop whose body always returns is `List.foldlM` in `Except`; its rules are the same, with no
`none` to rule out: `foldlM_ok_induct` for an invariant, `foldlM_cons_of_ok` and
`foldlM_append_of_ok` to run it a step or a stretch at a time, and `bind_eq_ok` to take a `?`
apart.

Nothing here names a component of the kernel.
-/

namespace Atom.Lib.Loop

universe u

variable {β σ ε : Type*}

/-- The loop over `l` with the step `f`, from the state `s`. -/
def run (f : β → σ → Option (Except ε σ)) : List β → σ → Option (Except ε σ)
  | [], s => some (.ok s)
  | b :: l, s =>
      match f b s with
      | some (.ok s') => run f l s'
      | some (.error e) => some (.error e)
      | none => none

variable {f : β → σ → Option (Except ε σ)}
@[simp] theorem run_nil (s : σ) : run f [] s = some (.ok s) := rfl


theorem run_cons_of_ok {b : β} {s s' : σ} (h : f b s = some (.ok s')) (l : List β) :
    run f (b :: l) s = run f l s' := by
  simp [run, h]

theorem run_cons_of_error {b : β} {s : σ} {e : ε} (h : f b s = some (.error e)) (l : List β) :
    run f (b :: l) s = some (.error e) := by
  simp [run, h]

theorem run_cons_of_none {b : β} {s : σ} (h : f b s = none) (l : List β) : run f (b :: l) s = none := by
  simp [run, h]

/-- **The invariant rule.**  `P done s` says what holds once the elements `done` are done. -/
theorem run_ok_induct (P : List β → σ → Prop) {l : List β}
    (hstep : ∀ done b s s', b ∈ l → P done s → f b s = some (.ok s') → P (done ++ [b]) s') :
    ∀ {done : List β} {s s' : σ}, run f l s = some (.ok s') → P done s → P (done ++ l) s' := by
  induction l with
  | nil =>
      intro done s s' h hP
      cases h
      simpa using hP
  | cons b l ih =>
      intro done s s' h hP
      -- the first step succeeded, since the loop did
      rcases hb : f b s with _ | e | s₁
      · rw [run_cons_of_none hb] at h
        cases h
      · rw [run_cons_of_error hb] at h
        cases h
      · rw [run_cons_of_ok hb] at h
        have hP₁ := hstep done b s s₁ List.mem_cons_self hP hb
        simpa using ih (fun done' b' s s' hb' => hstep done' b' s s' (List.mem_cons_of_mem b hb')) h hP₁

/-- **Success.**  A loop succeeds when each of its steps succeeds from the invariant and keeps
it. -/
theorem run_ok_of (P : σ → Prop) {l : List β}
    (hstep : ∀ b ∈ l, ∀ s, P s → ∃ s', f b s = some (.ok s') ∧ P s') :
    ∀ s, P s → ∃ s', run f l s = some (.ok s') ∧ P s' := by
  induction l with
  | nil => exact fun s hs => ⟨s, rfl, hs⟩
  | cons b l ih =>
      intro s hs
      obtain ⟨s₁, h₁, hs₁⟩ := hstep b List.mem_cons_self s hs
      rw [run_cons_of_ok h₁]
      exact ih (fun b' hb' => hstep b' (List.mem_cons_of_mem b hb')) s₁ hs₁

/-- **Return.**  A loop returns when each of its steps returns from the invariant, and keeps it
when it succeeds. -/
theorem run_isSome (P : σ → Prop) {l : List β}
    (hstep : ∀ b ∈ l, ∀ s, P s → (f b s).isSome ∧ ∀ s', f b s = some (.ok s') → P s') :
    ∀ s, P s → (run f l s).isSome := by
  induction l with
  | nil => exact fun _ _ => rfl
  | cons b l ih =>
      intro s hs
      obtain ⟨hsome, hkeep⟩ := hstep b List.mem_cons_self s hs
      obtain ⟨r, hr⟩ := Option.isSome_iff_exists.mp hsome
      rcases r with e | s₁
      · rw [run_cons_of_error hr]
        rfl
      · rw [run_cons_of_ok hr]
        exact ih (fun b' hb' => hstep b' (List.mem_cons_of_mem b hb')) s₁ (hkeep s₁ hr)

/-- A loop whose steps answer as another loop's wherever they answer, answers as it: how a
bound on a recursion inside the steps can be raised. -/
theorem run_of_agree {g : β → σ → Option (Except ε σ)}
    (hfg : ∀ b s r, f b s = some r → g b s = some r) :
    ∀ (l : List β) (s : σ) (r : Except ε σ), run f l s = some r → run g l s = some r
  | [], _, _, h => h
  | b :: l, s, r, h => by
      rcases hb : f b s with _ | e | s₁
      · rw [run_cons_of_none hb] at h
        cases h
      · rw [run_cons_of_error hb] at h
        rw [run_cons_of_error (hfg b s _ hb), h]
      · rw [run_cons_of_ok hb] at h
        rw [run_cons_of_ok (hfg b s _ hb)]
        exact run_of_agree hfg l s₁ r h

/-- **Errors.**  The error a loop ends with is one of its steps'. -/
theorem run_error (E : ε → Prop) (hstep : ∀ b s e, f b s = some (.error e) → E e) :
    ∀ (l : List β) (s : σ) (e : ε), run f l s = some (.error e) → E e
  | [], _, _, h => by cases h
  | b :: l, s, e, h => by
      rcases hb : f b s with _ | e' | s₁
      · rw [run_cons_of_none hb] at h
        cases h
      · rw [run_cons_of_error hb] at h
        cases h
        exact hstep b s e hb
      · rw [run_cons_of_ok hb] at h
        exact run_error E hstep l s₁ e h

/-! ### Loops that always return -/

section Fold

variable {f : σ → β → Except ε σ}

theorem bind_eq_ok {α τ : Type u} {x : Except ε α} {g : α → Except ε τ} {s : τ} :
    x >>= g = .ok s ↔ ∃ a, x = .ok a ∧ g a = .ok s := by
  cases x with
  | error e => exact iff_of_false (fun h => by cases h) fun ⟨_, h, _⟩ => by cases h
  | ok a => exact ⟨fun h => ⟨a, rfl, h⟩, fun ⟨_, h, hg⟩ => by cases h; exact hg⟩

theorem foldlM_cons_of_ok {b : β} {s s' : σ} (h : f s b = .ok s') (l : List β) :
    (b :: l).foldlM f s = l.foldlM f s' := by
  rw [List.foldlM_cons, h]
  rfl

theorem foldlM_append_of_ok {l₁ : List β} {s s' : σ} (h : l₁.foldlM f s = .ok s') (l₂ : List β) :
    (l₁ ++ l₂).foldlM f s = l₂.foldlM f s' := by
  rw [List.foldlM_append, h]
  rfl

/-- **The invariant rule.** -/
theorem foldlM_ok_induct (P : σ → Prop) {l : List β}
    (hstep : ∀ b ∈ l, ∀ s s', P s → f s b = .ok s' → P s') :
    ∀ {s s' : σ}, l.foldlM f s = .ok s' → P s → P s' := by
  induction l with
  | nil =>
      intro s s' h hP
      cases h
      exact hP
  | cons b l ih =>
      intro s s' h hP
      rw [List.foldlM_cons] at h
      obtain ⟨s₁, h₁, h⟩ := bind_eq_ok.mp h
      exact ih (fun b' hb' => hstep b' (List.mem_cons_of_mem b hb')) h
        (hstep b List.mem_cons_self s s₁ hP h₁)

end Fold

/-! ### Loops that may panic, against loops that cannot -/

section Simulation

variable {τ : Type*} {f : σ → β → Option σ} {g : τ → β → τ}

/-- **The simulation rule.**  From states related by `R`, a step returns, in a state related to
the total loop's next one: then the loop over any list returns, related to the total loop's end. -/
theorem foldlM_simulates (R : σ → τ → Prop)
    (hstep : ∀ s t b, R s t → ∃ s', f s b = some s' ∧ R s' (g t b)) :
    ∀ (l : List β) {s : σ} {t : τ}, R s t → ∃ s', l.foldlM f s = some s' ∧ R s' (l.foldl g t)
  | [], s, _, h => ⟨s, rfl, h⟩
  | b :: l, s, t, h => by
      obtain ⟨s₁, h₁, hR⟩ := hstep s t b h
      obtain ⟨s', h', hR'⟩ := foldlM_simulates R hstep l hR
      refine ⟨s', ?_, hR'⟩
      rw [List.foldlM_cons, h₁]
      exact h'

end Simulation

end Atom.Lib.Loop
