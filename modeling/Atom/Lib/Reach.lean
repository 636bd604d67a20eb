import Mathlib.Logic.Basic

/-!
# Library — reachability in a labelled transition system

A *system* is a step relation `step : σ → α → σ → Prop` over states `σ` and labels `α`, with an
initial state.  A state is reachable when finitely many labelled steps lead to it from the
initial one (`Reachable`).  A predicate that holds initially and that every step preserves holds
of every reachable state (`Reachable.induct`); a *deterministic* machine `f : σ → α → σ` is the
system whose steps are its applications, and each of its runs (`run`) reaches a state of that
system (`Reachable.run`).  A machine that also answers each input (`f : σ → ι → ω × σ`) is run by
`runOut`, which collects its answers; a map of its states that every step carries to the steps of
a second machine, answers included, carries whole runs (`runOut_simulates`).

Nothing here names a component of the kernel: the modules over it instantiate `σ` with a
subsystem's state and `α` with the calls that subsystem answers.
-/

namespace Atom.Lib

variable {σ α : Type*}

/-- `s` is reachable from `init` through steps of `step`. -/
inductive Reachable (step : σ → α → σ → Prop) (init : σ) : σ → Prop where
  | init : Reachable step init init
  | step {s s' : σ} (a : α) (h : Reachable step init s) (hs : step s a s') :
      Reachable step init s'

/-- The system whose steps are the applications of a deterministic machine. -/
def Det (f : σ → α → σ) (s : σ) (a : α) (s' : σ) : Prop := f s a = s'

/-- A run of a deterministic machine over a list of labels. -/
def run (f : σ → α → σ) : σ → List α → σ
  | s, [] => s
  | s, a :: as => run f (f s a) as
@[simp] theorem run_nil (f : σ → α → σ) (s : σ) : run f s [] = s := rfl

@[simp] theorem run_cons (f : σ → α → σ) (s : σ) (a : α) (as : List α) :
    run f s (a :: as) = run f (f s a) as := rfl


namespace Reachable

variable {step : σ → α → σ → Prop} {init : σ}

/-- **Invariant rule.**  What holds initially and is preserved by every step holds of every
reachable state. -/
theorem induct {P : σ → Prop} (h₀ : P init) (hs : ∀ s a s', P s → step s a s' → P s')
    {s : σ} (h : Reachable step init s) : P s := by
  induction h with
  | init => exact h₀
  | step a _ hst ih => exact hs _ a _ ih hst

/-- A reachable state's successor is reachable. -/
theorem next {s s' : σ} (h : Reachable step init s) (a : α) (hs : step s a s') :
    Reachable step init s' :=
  .step a h hs

/-- Reachability composes: what a reachable state reaches is reachable. -/
theorem trans {s s' : σ} (h : Reachable step init s) (h' : Reachable step s s') :
    Reachable step init s' := by
  induction h' with
  | init => exact h
  | step a _ hst ih => exact ih.next a hst

/-- The states a deterministic machine passes through from a reachable state are reachable. -/
theorem run {f : σ → α → σ} {s : σ} (h : Reachable (Det f) init s) (as : List α) :
    Reachable (Det f) init (Atom.Lib.run f s as) := by
  induction as generalizing s with
  | nil => exact h
  | cons a as ih => exact ih (h.next a rfl)

end Reachable

/-! ### Machines that answer -/

section Answers

variable {ι ω τ : Type*}

/-- A run of a machine that answers each input: its answers in order, and its last state. -/
def runOut (f : σ → ι → ω × σ) : σ → List ι → List ω × σ
  | s, [] => ([], s)
  | s, i :: is => ((f s i).1 :: (runOut f (f s i).2 is).1, (runOut f (f s i).2 is).2)

@[simp] theorem runOut_nil (f : σ → ι → ω × σ) (s : σ) : runOut f s [] = ([], s) := rfl

@[simp] theorem runOut_cons (f : σ → ι → ω × σ) (s : σ) (i : ι) (is : List ι) :
    runOut f s (i :: is) = ((f s i).1 :: (runOut f (f s i).2 is).1, (runOut f (f s i).2 is).2) := rfl

/-- **Simulation.**  When `abs` carries every step of `f` to a step of `g` with the same answer,
it carries every run: the answers agree and `abs` of the last state is the last state of `g`. -/
theorem runOut_simulates {f : σ → ι → ω × σ} {g : τ → ι → ω × τ} (abs : σ → τ)
    (hstep : ∀ s i, (f s i).1 = (g (abs s) i).1 ∧ abs (f s i).2 = (g (abs s) i).2) :
    ∀ (is : List ι) (s : σ),
      (runOut f s is).1 = (runOut g (abs s) is).1 ∧ abs (runOut f s is).2 = (runOut g (abs s) is).2
  | [], _ => ⟨rfl, rfl⟩
  | i :: is, s => by
      obtain ⟨hout, hstate⟩ := hstep s i
      obtain ⟨ihout, ihstate⟩ := runOut_simulates abs hstep is (f s i).2
      rw [hstate] at ihout ihstate
      simp only [runOut_cons, hout, ihout, ihstate, and_self]

end Answers

end Atom.Lib
