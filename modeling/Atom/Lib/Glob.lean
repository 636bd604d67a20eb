import Mathlib.Computability.Language

/-!
# Library — wildcard patterns

Patterns over any alphabet, built of `star` (any word, the empty one included), `any` (any one
letter) and letters that stand for themselves. What a pattern means is `lang p`, the
concatenation in Mathlib's `Language` of what each of its symbols stands for; `accepts` decides
it by recursion on the pattern (`accepts_iff`), so that membership can be evaluated.

The lemmas are the ones a matcher that scans a word left to right uses:

* `mem_lang_star_cons`: a word is in `lang (star :: p)` iff one of its suffixes is in `lang p`,
  so that language is closed under putting letters in front (`mem_lang_star_cons_of_suffix`);
* `cons_mem_lang_any`, `cons_mem_lang_lit`: a letter symbol consumes one letter;
* `length_of_mem_lang`: a pattern with no star only has words of its own length, and
  `mem_lang_append_of_starFree` cuts a word at that length;
* `nil_mem_lang`: the empty word is in `lang p` iff `p` is all stars.

Nothing here names a component of the kernel.
-/

namespace Atom.Lib.Glob

variable {α : Type*}

/-- A symbol of a pattern. -/
inductive Sym (α : Type*) where
  | star
  | any
  | lit (a : α)
  deriving DecidableEq, Repr

/-- The words a symbol stands for. -/
def Sym.lang : Sym α → Language α
  | .star => ⊤
  | .any => {u | u.length = 1}
  | .lit a => {[a]}

/-- The language of a pattern: one word of each symbol, in order. -/
def lang (p : List (Sym α)) : Language α := (p.map Sym.lang).prod

@[simp] theorem lang_nil : lang ([] : List (Sym α)) = 1 := rfl

@[simp] theorem lang_cons (s : Sym α) (p : List (Sym α)) : lang (s :: p) = s.lang * lang p := by
  simp [lang]

theorem lang_append (p q : List (Sym α)) : lang (p ++ q) = lang p * lang q := by
  simp [lang, List.prod_append]

/-! ### One symbol at the front -/

theorem mem_lang_star_cons {p : List (Sym α)} {t : List α} :
    t ∈ lang (.star :: p) ↔ ∃ w, w <:+ t ∧ w ∈ lang p := by
  simp only [lang_cons, Language.mem_mul]
  constructor
  · rintro ⟨u, -, w, hw, rfl⟩
    exact ⟨w, List.suffix_append u w, hw⟩
  · rintro ⟨w, ⟨u, rfl⟩, hw⟩
    exact ⟨u, trivial, w, hw, rfl⟩

/-- Letters put in front of a word of `lang (star :: p)` are taken by the star. -/
theorem mem_lang_star_cons_of_suffix {p : List (Sym α)} {t u : List α}
    (ht : t ∈ lang (.star :: p)) (hs : t <:+ u) : u ∈ lang (.star :: p) := by
  obtain ⟨w, hw, hp⟩ := mem_lang_star_cons.mp ht
  exact mem_lang_star_cons.mpr ⟨w, hw.trans hs, hp⟩

theorem cons_mem_lang_any {p : List (Sym α)} {a : α} {t : List α} :
    a :: t ∈ lang (.any :: p) ↔ t ∈ lang p := by
  simp only [lang_cons, Language.mem_mul]
  constructor
  · rintro ⟨u, hu, w, hw, h⟩
    obtain ⟨b, rfl⟩ := List.length_eq_one_iff.mp hu
    simp only [List.singleton_append, List.cons.injEq] at h
    exact h.2 ▸ hw
  · intro ht
    exact ⟨[a], rfl, t, ht, rfl⟩

theorem nil_not_mem_lang_any {p : List (Sym α)} : [] ∉ lang (.any :: p) := by
  simp only [lang_cons, Language.mem_mul, List.append_eq_nil_iff, not_exists, not_and]
  rintro u hu w - ⟨rfl, -⟩
  exact absurd (show ([] : List α).length = 1 from hu) (by simp)

theorem cons_mem_lang_lit {p : List (Sym α)} {a b : α} {t : List α} :
    a :: t ∈ lang (.lit b :: p) ↔ b = a ∧ t ∈ lang p := by
  simp only [lang_cons, Language.mem_mul]
  constructor
  · rintro ⟨u, hu, w, hw, h⟩
    obtain rfl : u = [b] := hu
    simp only [List.singleton_append, List.cons.injEq] at h
    exact ⟨h.1, h.2 ▸ hw⟩
  · rintro ⟨rfl, ht⟩
    exact ⟨[b], rfl, t, ht, rfl⟩

theorem nil_not_mem_lang_lit {p : List (Sym α)} {b : α} : [] ∉ lang (.lit b :: p) := by
  simp only [lang_cons, Language.mem_mul, List.append_eq_nil_iff, not_exists, not_and]
  rintro u hu w - ⟨rfl, -⟩
  exact absurd (show ([] : List α) = [b] from hu) (by simp)

/-- The empty word matches exactly the patterns made of stars. -/
theorem nil_mem_lang {p : List (Sym α)} : [] ∈ lang p ↔ ∀ s ∈ p, s = .star := by
  induction p with
  | nil => simp [Language.mem_one]
  | cons s p ih =>
      cases s with
      | star => rw [mem_lang_star_cons]; simp [ih]
      | any => simpa using nil_not_mem_lang_any
      | lit b => simpa using nil_not_mem_lang_lit

/-! ### Patterns with no star -/

/-- A pattern with no star has only words of its own length. -/
theorem length_of_mem_lang {p : List (Sym α)} (hp : .star ∉ p) :
    ∀ {t : List α}, t ∈ lang p → t.length = p.length := by
  induction p with
  | nil => intro t ht; simpa [Language.mem_one] using ht
  | cons s p ih =>
      intro t ht
      have hp' : .star ∉ p := fun h => hp (List.mem_cons_of_mem s h)
      cases t with
      | nil =>
          cases s with
          | star => simp at hp
          | any => exact absurd ht nil_not_mem_lang_any
          | lit b => exact absurd ht nil_not_mem_lang_lit
      | cons a t =>
          cases s with
          | star => simp at hp
          | any => simp [ih hp' (cons_mem_lang_any.mp ht)]
          | lit b => simp [ih hp' (cons_mem_lang_lit.mp ht).2]

/-- A word matches a starless pattern followed by `q` iff its first `p.length` letters match the
pattern and the rest matches `q`. -/
theorem mem_lang_append_of_starFree {p q : List (Sym α)} (hp : .star ∉ p) {t : List α} :
    t ∈ lang (p ++ q) ↔ t.take p.length ∈ lang p ∧ t.drop p.length ∈ lang q := by
  rw [lang_append, Language.mem_mul]
  constructor
  · rintro ⟨u, hu, w, hw, rfl⟩
    have hlen := length_of_mem_lang hp hu
    rw [← hlen, List.take_left, List.drop_left]
    exact ⟨hu, hw⟩
  · rintro ⟨hu, hw⟩
    exact ⟨_, hu, _, hw, List.take_append_drop _ _⟩

/-! ### A star before a starless stretch

What a matcher that remembers only its last star relies on: once a starless stretch after a star
has matched, the letters before it never need to be matched again. -/

/-- A star takes no letter, or takes the first one and goes on. -/
theorem cons_mem_lang_star_cons {p : List (Sym α)} {a : α} {t : List α} :
    a :: t ∈ lang (.star :: p) ↔ a :: t ∈ lang p ∨ t ∈ lang (.star :: p) := by
  simp only [mem_lang_star_cons, List.suffix_cons_iff]
  constructor
  · rintro ⟨w, rfl | hw, hp⟩
    · exact .inl hp
    · exact .inr ⟨w, hw, hp⟩
  · rintro (hp | ⟨w, hw, hp⟩)
    · exact ⟨a :: t, .inl rfl, hp⟩
    · exact ⟨w, .inr hw, hp⟩

/-- Between two stars, a starless stretch that matched `u` can be matched there and nowhere
earlier: what follows it is all that is left to match. -/
theorem append_mem_lang_star_starFree_star {seg r : List (Sym α)} (hseg : .star ∉ seg)
    {u v : List α} (hu : u ∈ lang seg) :
    u ++ v ∈ lang (.star :: (seg ++ .star :: r)) ↔ v ∈ lang (.star :: r) := by
  have hlen := length_of_mem_lang hseg hu
  constructor
  · intro h
    obtain ⟨w, hw, hm⟩ := mem_lang_star_cons.mp h
    have hrest := ((mem_lang_append_of_starFree hseg).mp hm).2
    -- the part of `w` after the stretch is a suffix of `u ++ v` no longer than `v`
    have hsuf : w.drop seg.length <:+ v := by
      refine List.suffix_of_suffix_length_le ((List.drop_suffix _ w).trans hw)
        (List.suffix_append u v) ?_
      have := hw.length_le
      simp only [List.length_drop, List.length_append] at this ⊢
      omega
    exact mem_lang_star_cons_of_suffix hrest hsuf
  · intro hv
    have hm : u ++ v ∈ lang (seg ++ .star :: r) := by
      rw [lang_append, Language.mem_mul]
      exact ⟨u, hu, v, hv, rfl⟩
    exact mem_lang_star_cons.mpr ⟨u ++ v, List.suffix_refl _, hm⟩

/-- A word that a starless stretch after a star matches in full is in the language iff the rest
of the pattern takes the empty word. -/
theorem mem_lang_star_starFree {seg r : List (Sym α)} (hseg : .star ∉ seg) {u : List α}
    (hu : u ∈ lang seg) : u ∈ lang (.star :: (seg ++ r)) ↔ [] ∈ lang r := by
  have hlen := length_of_mem_lang hseg hu
  constructor
  · intro h
    obtain ⟨w, hw, hm⟩ := mem_lang_star_cons.mp h
    obtain ⟨hpre, hrest⟩ := (mem_lang_append_of_starFree hseg).mp hm
    have hwlen : seg.length ≤ w.length := by
      have := length_of_mem_lang hseg hpre
      simp only [List.length_take] at this
      omega
    have hlen' := hw.length_le
    rwa [List.drop_eq_nil_of_le (by omega)] at hrest
  · intro hr
    have hm : u ∈ lang (seg ++ r) := by
      rw [lang_append, Language.mem_mul]
      exact ⟨u, hu, [], hr, List.append_nil u⟩
    exact mem_lang_star_cons.mpr ⟨u, List.suffix_refl _, hm⟩

/-! ### Deciding membership -/

/-- Whether `t` is in `lang p`, by recursion on the pattern; a star tries every suffix. -/
def accepts [DecidableEq α] : List (Sym α) → List α → Bool
  | [], t => t.isEmpty
  | .star :: p, t => t.tails.any fun w => accepts p w
  | .any :: _, [] => false
  | .any :: p, _ :: t => accepts p t
  | .lit _ :: _, [] => false
  | .lit b :: p, a :: t => b == a && accepts p t

theorem accepts_iff [DecidableEq α] : ∀ (p : List (Sym α)) (t : List α),
    accepts p t = true ↔ t ∈ lang p
  | [], t => by simp [accepts, Language.mem_one]
  | .star :: p, t => by
      simp only [accepts, List.any_eq_true, List.mem_tails, accepts_iff p, mem_lang_star_cons]
  | .any :: p, [] => by simpa [accepts] using nil_not_mem_lang_any
  | .any :: p, a :: t => by rw [accepts, accepts_iff p, cons_mem_lang_any]
  | .lit b :: p, [] => by simpa [accepts] using nil_not_mem_lang_lit
  | .lit b :: p, a :: t => by
      rw [accepts, Bool.and_eq_true, beq_iff_eq, accepts_iff p, cons_mem_lang_lit]

instance [DecidableEq α] (p : List (Sym α)) : DecidablePred (· ∈ lang p) :=
  fun t => decidable_of_iff _ (accepts_iff p t)

example : [1, 2, 3] ∈ lang [Sym.star, .lit 3] := by decide

example : [1, 2, 3] ∉ lang [Sym.any, .lit 3] := by decide

end Atom.Lib.Glob
