import Mathlib.Logic.Function.Basic
import Mathlib.Data.List.Basic

/-!
# Library — walks through a memory of tables

A memory `mem : α → κ → ε` holds a table at each address `α`, and a table an entry `ε` at each
index `κ`; an entry may point at a further table (`next`).  A walk from a root along a list of
indices reads one entry per index and follows it (`tableAt`), and the entries it reads are its
footprint (`reads`).  The *leaf* of a walk is the entry it ends on (`entryAt`).

* `tableAt_extends`: a memory whose tables are only ever linked in where an entry pointed
  nowhere keeps every walk that got through, and sends the others nowhere or into new tables.

Nothing here names a component of the kernel: the paging model instantiates `α` with physical
page addresses, `κ` with the 512 indices of a table and `ε` with the raw entries.
-/

namespace Atom.Lib.Walk

variable {α κ ε : Type*} (mem : α → κ → ε) (next : ε → Option α)

/-- The table a walk from `t` along `path` ends in, if every entry on the way points on. -/
def tableAt : α → List κ → Option α
  | t, [] => some t
  | t, i :: path => (next (mem t i)).bind fun t' => tableAt t' path

/-- The entries a walk from `t` along `path` reads, as table and index, up to the first that
does not point on. -/
def reads : α → List κ → List (α × κ)
  | _, [] => []
  | t, i :: path =>
      (t, i) ::
        match next (mem t i) with
        | some t' => reads t' path
        | none => []

/-- The entry at index `i` of the table a walk ends in: the leaf of the walk `path ++ [i]`. -/
def entryAt (t : α) (path : List κ) (i : κ) : Option ε :=
  (tableAt mem next t path).map fun t' => mem t' i

/-- Where the leaf of a walk lies. -/
def leafAt (t : α) (path : List κ) (i : κ) : Option (α × κ) :=
  (tableAt mem next t path).map fun t' => (t', i)

/-- The memory after the entry at index `i` of table `t` is set to `e`. -/
def write [DecidableEq α] [DecidableEq κ] (t : α) (i : κ) (e : ε) : α → κ → ε :=
  Function.update mem t (Function.update (mem t) i e)

variable {mem next}

@[simp] theorem tableAt_nil (t : α) : tableAt mem next t [] = some t := rfl

theorem tableAt_cons (t : α) (i : κ) (path : List κ) :
    tableAt mem next t (i :: path) = (next (mem t i)).bind fun t' => tableAt mem next t' path :=
  rfl

theorem write_apply [DecidableEq α] [DecidableEq κ] (t : α) (i : κ) (e : ε) (t' : α) (i' : κ) :
    write mem t i e t' i' = if t' = t ∧ i' = i then e else mem t' i' := by
  by_cases ht : t' = t
  · subst ht
    by_cases hi : i' = i
    · subst hi
      simp [write]
    · simp [write, hi]
  · simp [write, ht]

/-! ### The frame rule -/

section Writes

variable [DecidableEq α] [DecidableEq κ]

end Writes

/-! ### Labelled tables

A labelling names some of the tables, and says where the entries of a labelled table may point:
a followed entry of a table whose label satisfies `G` points at a table labelled `step b i`
(`Closed`).  A walk from a labelled table then passes through labelled tables only, and
`labelsAlong` lists their labels with the indices the walk reads.  Two memories that agree on
those entries of the tables so labelled give the same walk (`entryAt_labelled`), whatever else
differs between them. -/

section Labels

variable {β : Type*}

/-- Every followed entry of a table labelled `b` with `G b` points at a table labelled
`step b i`. -/
def Closed (mem : α → κ → ε) (next : ε → Option α) (lab : α → Option β) (G : β → Prop)
    (step : β → κ → β) : Prop :=
  ∀ t b i t', lab t = some b → G b → next (mem t i) = some t' → lab t' = some (step b i)

/-- The label and the index of each entry a walk along `path` from a table labelled `b` reads,
ending with its leaf at index `j`. -/
def labelsAlong (step : β → κ → β) : β → List κ → κ → List (β × κ)
  | b, [], j => [(b, j)]
  | b, i :: path, j => (b, i) :: labelsAlong step (step b i) path j

/-- The label of the table a walk along `path` from a table labelled `b` ends in. -/
def labelEnd (step : β → κ → β) (b : β) (path : List κ) : β := path.foldl step b

/-- Every table a walk along `path` passes through before the last has a label satisfying
`G`. -/
def Guarded (G : β → Prop) (step : β → κ → β) : β → List κ → Prop
  | _, [] => True
  | b, i :: path => G b ∧ Guarded G step (step b i) path

variable {lab : α → Option β} {G : β → Prop} {step : β → κ → β}

theorem labelEnd_mem_labelsAlong (b : β) (path : List κ) (j : κ) :
    (labelEnd step b path, j) ∈ labelsAlong step b path j := by
  induction path generalizing b with
  | nil => simp [labelEnd, labelsAlong]
  | cons i path ih => exact List.mem_cons_of_mem _ (ih (step b i))

theorem entryAt_cons (t : α) (i : κ) (path : List κ) (j : κ) :
    entryAt mem next t (i :: path) j = (next (mem t i)).bind fun t' => entryAt mem next t' path j := by
  simp only [entryAt, tableAt_cons]
  cases next (mem t i) <;> rfl

/-- **Walks through labelled tables.**  A walk from a labelled table depends only on the entries,
at the indices it reads, of the tables labelled as the tables it passes through. -/
theorem entryAt_labelled {mem' : α → κ → ε} (hc : Closed mem next lab G step) {r : α} {b : β}
    {path : List κ} {j : κ} (hr : lab r = some b) (hg : Guarded G step b path)
    (hagree : ∀ x ∈ labelsAlong step b path j, ∀ t, lab t = some x.1 → mem' t x.2 = mem t x.2) :
    entryAt mem' next r path j = entryAt mem next r path j := by
  induction path generalizing r b with
  | nil => simp [entryAt, hagree (b, j) (by simp [labelsAlong]) r hr]
  | cons i path ih =>
      obtain ⟨hG, hg⟩ := hg
      have hi : mem' r i = mem r i := hagree (b, i) List.mem_cons_self r hr
      rw [entryAt_cons, entryAt_cons, hi]
      cases hn : next (mem r i) with
      | none => rfl
      | some t' =>
          -- the next table is labelled `step b i`, and the rest of the walk starts there
          exact ih (hc r b i t' hr hG hn) hg fun x hx => hagree x (List.mem_cons_of_mem _ hx)

/-- The table a walk from a labelled table ends in is labelled `labelEnd`. -/
theorem tableAt_labelled (hc : Closed mem next lab G step) {r t : α} {b : β} {path : List κ}
    (hr : lab r = some b) (hg : Guarded G step b path) (ht : tableAt mem next r path = some t) :
    lab t = some (labelEnd step b path) := by
  induction path generalizing r b with
  | nil =>
      simp only [tableAt_nil, Option.some.injEq] at ht
      subst ht
      exact hr
  | cons i path ih =>
      obtain ⟨hG, hg⟩ := hg
      rw [tableAt_cons] at ht
      cases hn : next (mem r i) with
      | none => simp [hn] at ht
      | some t' =>
          rw [hn] at ht
          exact ih (hc r b i t' hr hG hn) hg ht

/-- A memory that agrees with `mem` on every table labelled with `G` keeps the labelling
closed. -/
theorem Closed.of_agree {mem' : α → κ → ε} (hc : Closed mem next lab G step)
    (h : ∀ t b, lab t = some b → G b → mem' t = mem t) : Closed mem' next lab G step := by
  intro t b i t' hl hG hn
  rw [h t b hl hG] at hn
  exact hc t b i t' hl hG hn

/-- Labelling an unlabelled table keeps the labelling closed, when the followed entries of that
table point at tables labelled as `step` says.  No labelled table points at it. -/
theorem Closed.label [DecidableEq α] (hc : Closed mem next lab G step) {p : α} {b : β}
    (hp : lab p = none) (hb : ∀ i t', G b → next (mem p i) = some t' → lab t' = some (step b i)) :
    Closed mem next (Function.update lab p (some b)) G step := by
  have hne : ∀ t' c, lab t' = some c → t' ≠ p := by
    rintro t' c h rfl
    rw [hp] at h
    cases h
  intro t c i t' hl hG hn
  by_cases htp : t = p
  · subst htp
    rw [Function.update_self, Option.some.injEq] at hl
    subst hl
    have h' := hb i t' hG hn
    rw [Function.update_of_ne (hne t' _ h')]
    exact h'
  · rw [Function.update_of_ne htp] at hl
    have h' := hc t c i t' hl hG hn
    rw [Function.update_of_ne (hne t' _ h')]
    exact h'

/-- Taking the label off a table that no `step` labels keeps the labelling closed: no labelled
table points at it. -/
theorem Closed.unlabel [DecidableEq α] (hc : Closed mem next lab G step) {p : α}
    (hp : ∀ c, lab p = some c → ∀ b i, step b i ≠ c) :
    Closed mem next (Function.update lab p none) G step := by
  intro t b i t' hl hG hn
  have htp : t ≠ p := by
    rintro rfl
    rw [Function.update_self] at hl
    cases hl
  rw [Function.update_of_ne htp] at hl
  have h' := hc t b i t' hl hG hn
  have ht'p : t' ≠ p := by
    rintro rfl
    exact hp _ h' b i rfl
  rw [Function.update_of_ne ht'p]
  exact h'

/-- A write keeps the labelling closed when the entry written points where `step` says, or when
its table is not one whose entries are followed. -/
theorem Closed.write [DecidableEq α] [DecidableEq κ] (hc : Closed mem next lab G step) {p : α}
    {j : κ} {e : ε} (he : ∀ b t', lab p = some b → G b → next e = some t' → lab t' = some (step b j)) :
    Closed (write mem p j e) next lab G step := by
  intro t b i t' hl hG hn
  rw [write_apply] at hn
  split_ifs at hn with hw
  · obtain ⟨rfl, rfl⟩ := hw
    exact he b t' hl hG hn
  · exact hc t b i t' hl hG hn

end Labels

/-! ### Memories that only grow

`mem'` extends `mem` over a labelling `lab` when the followed entries of the labelled tables point
where they did, except that an entry that pointed nowhere may now point at a table `lab` leaves
unlabelled; and the tables a second labelling `lab'` adds point only at such tables
(`Extends`).  A walk from a labelled table then ends where it did, or ended nowhere and now ends
nowhere or in a table `lab` leaves unlabelled (`tableAt_extends`).  This is how a page-table
hierarchy changes when tables are only ever linked in where there was none. -/

section Grow

variable {β : Type*} {lab lab' lab'' : α → Option β} {G : β → Prop} {step : β → κ → β}

/-- `mem'` extends `mem` over `lab`, whose labels `lab'` keeps and adds to. -/
structure Extends (mem mem' : α → κ → ε) (next : ε → Option α) (lab lab' : α → Option β)
    (G : β → Prop) : Prop where
  /-- A followed entry of a table `lab` labels points where it did, or pointed nowhere and now
  points at a table `lab` leaves unlabelled. -/
  old : ∀ t b i, lab t = some b → G b →
    next (mem' t i) = next (mem t i) ∨
      (next (mem t i) = none ∧ ∀ t', next (mem' t i) = some t' → lab t' = none)
  /-- A followed entry of a table only `lab'` labels points at a table `lab` leaves unlabelled. -/
  new : ∀ t b i t', lab t = none → lab' t = some b → G b → next (mem' t i) = some t' → lab t' = none

theorem Extends.refl (mem : α → κ → ε) (next : ε → Option α) (lab : α → Option β) (G : β → Prop) :
    Extends mem mem next lab lab G :=
  ⟨fun _ _ _ _ _ => .inl rfl, fun t _ _ _ h h' => by rw [h] at h'; cases h'⟩

theorem Extends.trans {mem' mem'' : α → κ → ε} (h₁ : Extends mem mem' next lab lab' G)
    (h₂ : Extends mem' mem'' next lab' lab'' G) (hmono : ∀ t b, lab t = some b → lab' t = some b)
    (hmono' : ∀ t b, lab' t = some b → lab'' t = some b) : Extends mem mem'' next lab lab'' G := by
  -- a table `lab` leaves unlabelled that `lab'` leaves unlabelled too
  have hfresh : ∀ t', lab' t' = none → lab t' = none := fun t' h' => by
    cases hl : lab t' with
    | none => rfl
    | some b => rw [hmono t' b hl] at h'; cases h'
  refine ⟨fun t b i hl hG => ?_, fun t b i t' hl hl'' hG hn => ?_⟩
  · rcases h₂.old t b i (hmono t b hl) hG with h | ⟨hnone, hto⟩
    · rcases h₁.old t b i hl hG with h' | h'
      · exact .inl (h.trans h')
      · exact .inr ⟨h'.1, fun t' hn => h'.2 t' (h ▸ hn)⟩
    · -- the link is the second memory's: the entry pointed nowhere in the first two
      have hold : next (mem t i) = none := by
        rcases h₁.old t b i hl hG with h' | h'
        · exact h' ▸ hnone
        · exact h'.1
      exact .inr ⟨hold, fun t' hn => hfresh t' (hto t' hn)⟩
  · cases hl' : lab' t with
    | none => exact hfresh t' (h₂.new t b i t' hl' hl'' hG hn)
    | some b' =>
        have hb : b' = b := Option.some.inj ((hmono' t b' hl').symm.trans hl'')
        subst hb
        rcases h₂.old t b' i hl' hG with h | ⟨-, hto⟩
        · exact h₁.new t b' i t' hl hl' hG (h ▸ hn)
        · exact hfresh t' (hto t' hn)

/-- A walk from a table `lab` leaves unlabelled, but `lab'` labels, passes through such tables
only. -/
theorem Extends.tableAt_fresh {mem' : α → κ → ε} (he : Extends mem mem' next lab lab' G)
    (hc' : Closed mem' next lab' G step) :
    ∀ {path : List κ} {t t' : α} {b : β}, lab t = none → lab' t = some b → Guarded G step b path →
      tableAt mem' next t path = some t' → lab t' = none
  | [], t, t', b, hl, _, _, ht => by
      simp only [tableAt_nil, Option.some.injEq] at ht
      exact ht ▸ hl
  | i :: path, t, t', b, hl, hl', hg, ht => by
      obtain ⟨hG, hg⟩ := hg
      rw [tableAt_cons] at ht
      cases hn : next (mem' t i) with
      | none => simp [hn] at ht
      | some t₁ =>
          rw [hn, Option.bind_some] at ht
          exact Extends.tableAt_fresh he hc' (he.new t b i t₁ hl hl' hG hn) (hc' t b i t₁ hl' hG hn)
            hg ht

/-- **A memory that only grows keeps every walk**: a walk from a labelled table ends where it
did, or ended nowhere and now ends nowhere or in a table `lab` leaves unlabelled. -/
theorem tableAt_extends {mem' : α → κ → ε} (hc : Closed mem next lab G step)
    (hc' : Closed mem' next lab' G step) (hmono : ∀ t b, lab t = some b → lab' t = some b)
    (he : Extends mem mem' next lab lab' G) :
    ∀ {path : List κ} {r : α} {b : β}, lab r = some b → Guarded G step b path →
      tableAt mem' next r path = tableAt mem next r path ∨
        (tableAt mem next r path = none ∧ ∀ t, tableAt mem' next r path = some t → lab t = none)
  | [], _, _, _, _ => .inl rfl
  | i :: path, r, b, hr, hg => by
      obtain ⟨hG, hg⟩ := hg
      rw [tableAt_cons, tableAt_cons]
      rcases he.old r b i hr hG with hsame | ⟨hnone, hto⟩
      · rw [hsame]
        cases hn : next (mem r i) with
        | none => exact .inl rfl
        | some t₁ =>
            -- the entry points where it did: the rest of the walk starts at the same table
            simp only [Option.bind_some]
            exact tableAt_extends hc hc' hmono he (hc r b i t₁ hr hG hn) hg
      · rw [hnone, Option.bind_none]
        refine .inr ⟨rfl, fun t ht => ?_⟩
        cases hn : next (mem' r i) with
        | none => simp [hn] at ht
        | some t₁ =>
            -- the entry is a link to a fresh table, and the walk stays among fresh tables
            rw [hn, Option.bind_some] at ht
            exact he.tableAt_fresh hc' (hto t₁ hn) (hc' r b i t₁ (hmono r b hr) hG hn) hg ht

end Grow

end Atom.Lib.Walk
