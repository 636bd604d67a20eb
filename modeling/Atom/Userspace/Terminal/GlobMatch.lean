import Atom.Lib.Glob

/-!
# Terminal — `glob_match`

`glob_match` of `terminal/src/parser.rs`, the matcher for `*` and `?` that remembers only the
last star it met (`star_pi`, `star_ti`) and, when the bytes after it stop matching, lets that star
take one more byte of the text. What it is meant to decide is `lang` of `Lib.Glob`, with `*` read
as a star, `?` as any one byte and every other byte as itself.

* `globLoop_iff`: from every state the loop can be in, it returns `true` iff the text from there
  on is in the language of the pattern from there on (`Target`), for a text with no `*` byte.
* `globMatch_iff`: so for such a text `glob_match` decides `lang`; the loop terminates on every
  input (its measure is lexicographic in `star_ti`, `ti` and `pi`).
* `globMatch_starInText`: a `*` byte in the text is compared with a `*` of the pattern as a
  plain byte before the pattern's star is tried, so `glob_match("*", "*x")` is false.
-/

namespace Atom.Terminal

open Atom.Lib.Glob

/-! ### The model -/

/-- What a pattern byte stands for: `*` any bytes, `?` any one byte, any other byte itself. -/
def globSym (b : UInt8) : Sym UInt8 :=
  if b = '*'.toUInt8 then .star else if b = '?'.toUInt8 then .any else .lit b

/-- The pattern the bytes `pattern` stand for. -/
def symbols (pattern : List UInt8) : List (Sym UInt8) := pattern.map globSym

/-- The second loop of `glob_match`: the index past the run of `*` at `pi`. -/
def skipStars (pattern : List UInt8) (pi : Nat) : Nat :=
  if pattern[pi]? = some '*'.toUInt8 then skipStars pattern (pi + 1) else pi
termination_by pattern.length - pi
decreasing_by
  have := (List.getElem?_eq_some_iff.mp ‹_›).1
  omega

/-- The first component of the measure of `globLoop`: how far `star_ti` has come. On the states
the loop reaches `star_ti ≤ ti`; the `min` makes the measure go down from any state. -/
def starMark (ti : Nat) : Option (Nat × Nat) → Nat
  | none => 0
  | some (_, starTi) => min starTi ti + 1

/-- The main loop of `glob_match`. `star` is `(star_pi, star_ti)` once a `*` has been met; before
that both are `usize::MAX`, here `none`. -/
def globLoop (pattern text : List UInt8) (pi ti : Nat) (star : Option (Nat × Nat)) : Bool :=
  if ti < text.length then
    if pattern[pi]? = some '?'.toUInt8 ∨ pattern[pi]? = text[ti]? then
      globLoop pattern text (pi + 1) (ti + 1) star
    else if pattern[pi]? = some '*'.toUInt8 then
      globLoop pattern text (pi + 1) ti (some (pi, ti))
    else
      match star with
      | some (starPi, starTi) =>
          globLoop pattern text (starPi + 1) (starTi + 1) (some (starPi, starTi + 1))
      | none => false
  else
    skipStars pattern pi == pattern.length
termination_by (text.length + 1 - starMark ti star, text.length - ti, pattern.length - pi)
decreasing_by
  all_goals simp only [Prod.lex_def]
  · cases star <;> simp only [starMark, Nat.sub_zero, true_and] <;> omega
  · have := (List.getElem?_eq_some_iff.mp ‹pattern[pi]? = _›).1
    cases star <;> simp only [starMark, Nat.sub_zero, min_self, true_and] <;> omega
  · simp only [starMark, min_self]
    omega

/-- `glob_match`, on the bytes of its two strings. -/
def globMatch (pattern text : List UInt8) : Bool := globLoop pattern text 0 0 none

/-! ### Bytes and symbols -/

theorem drop_eq_cons_of_getElem? {l : List UInt8} {i : Nat} {b : UInt8} (h : l[i]? = some b) :
    l.drop i = b :: l.drop (i + 1) := by
  obtain ⟨hi, rfl⟩ := List.getElem?_eq_some_iff.mp h
  exact List.drop_eq_getElem_cons hi

@[simp] theorem globSym_star : globSym '*'.toUInt8 = .star := rfl

theorem globSym_eq_star {b : UInt8} : globSym b = .star ↔ b = '*'.toUInt8 := by
  unfold globSym
  split_ifs <;> simp_all

theorem star_mem_symbols {l : List UInt8} : .star ∈ symbols l ↔ '*'.toUInt8 ∈ l := by
  simp [symbols, globSym_eq_star]

theorem forall_mem_symbols_star {l : List UInt8} :
    (∀ s ∈ symbols l, s = .star) ↔ ∀ b ∈ l, b = '*'.toUInt8 := by
  simp only [symbols, List.forall_mem_map, globSym_eq_star]

/-- A byte that is `?` or the text's byte, and not `*`, consumes that byte. -/
theorem cons_mem_lang_globSym {b a : UInt8} {w : List UInt8} {p : List (Sym UInt8)}
    (hb : b = '?'.toUInt8 ∨ b = a) (hstar : b ≠ '*'.toUInt8) :
    a :: w ∈ lang (globSym b :: p) ↔ w ∈ lang p := by
  rcases hb with rfl | rfl
  · rw [show globSym '?'.toUInt8 = .any by decide, cons_mem_lang_any]
  · by_cases hq : b = '?'.toUInt8
    · subst hq
      rw [show globSym '?'.toUInt8 = .any by decide, cons_mem_lang_any]
    · rw [show globSym b = .lit b by simp [globSym, hstar, hq], cons_mem_lang_lit]
      simp

/-- A pattern byte that is none of `?`, `*` and the text's byte fails there. -/
theorem cons_not_mem_lang_globSym {b a : UInt8} {w : List UInt8} {p : List (Sym UInt8)}
    (hq : b ≠ '?'.toUInt8) (ha : b ≠ a) (hstar : b ≠ '*'.toUInt8) :
    a :: w ∉ lang (globSym b :: p) := by
  rw [show globSym b = .lit b by simp [globSym, hstar, hq], cons_mem_lang_lit]
  exact fun h => ha h.1

/-- The rest of the pattern fails on the rest of the text where the loop finds neither a match
nor a star. -/
theorem drop_not_mem_lang_of_mismatch {pattern text : List UInt8} {pi ti : Nat}
    (hti : ti < text.length)
    (hm : ¬(pattern[pi]? = some '?'.toUInt8 ∨ pattern[pi]? = text[ti]?))
    (hs : ¬pattern[pi]? = some '*'.toUInt8) :
    text.drop ti ∉ lang (symbols (pattern.drop pi)) := by
  cases hp : pattern[pi]? with
  | none =>
      have hnil : pattern.drop pi = [] := List.drop_eq_nil_of_le (List.getElem?_eq_none_iff.mp hp)
      rw [hnil, symbols, List.map_nil, lang_nil, Language.mem_one]
      exact List.ne_nil_of_length_pos (by simp; omega)
  | some b =>
      simp only [hp, Option.some.injEq, List.getElem?_eq_getElem hti, not_or] at hm hs
      rw [List.drop_eq_getElem_cons hti, drop_eq_cons_of_getElem? hp, symbols, List.map_cons]
      exact cons_not_mem_lang_globSym hm.1 hm.2 hs

theorem skipStars_eq_length {pattern : List UInt8} {pi : Nat} (hpi : pi ≤ pattern.length) :
    skipStars pattern pi = pattern.length ↔ ∀ b ∈ pattern.drop pi, b = '*'.toUInt8 := by
  induction pi using skipStars.induct pattern with
  | case1 pi h ih =>
      rw [skipStars, if_pos h, ih (List.getElem?_eq_some_iff.mp h).1, drop_eq_cons_of_getElem? h]
      simp
  | case2 pi h =>
      rw [skipStars, if_neg h]
      rcases Nat.lt_or_ge pi pattern.length with hlt | hge
      · rw [List.drop_eq_getElem_cons hlt, List.forall_mem_cons]
        simp only [List.getElem?_eq_getElem hlt, Option.some.injEq] at h
        exact iff_of_false (by omega) fun h' => h h'.1
      · rw [List.drop_eq_nil_of_le hge]
        exact iff_of_true (by omega) (by simp)

/-! ### What the loop decides -/

/-- The stretch of the pattern between the remembered star and `pi`. -/
def stretch (pattern : List UInt8) (starPi pi : Nat) : List UInt8 :=
  (pattern.drop (starPi + 1)).take (pi - (starPi + 1))

/-- The loop's invariant. Once a star is remembered, `star_pi` holds a `*` and the stretch after
it up to `pi` has no star and matched the text from `star_ti` to `ti`. -/
def LoopInv (pattern text : List UInt8) (pi ti : Nat) : Option (Nat × Nat) → Prop
  | none => pi ≤ pattern.length ∧ ti ≤ text.length
  | some (starPi, starTi) =>
      pattern[starPi]? = some '*'.toUInt8 ∧ starPi < pi ∧ pi ≤ pattern.length ∧ starTi ≤ ti ∧
        ti ≤ text.length ∧ '*'.toUInt8 ∉ stretch pattern starPi pi ∧
        (text.drop starTi).take (ti - starTi) ∈ lang (symbols (stretch pattern starPi pi))

/-- What the loop decides from a state: before any star, whether the rest of the text is in the
language of the rest of the pattern; after one, the same from the remembered star on. -/
def Target (pattern text : List UInt8) (pi ti : Nat) : Option (Nat × Nat) → Prop
  | none => text.drop ti ∈ lang (symbols (pattern.drop pi))
  | some (starPi, starTi) => text.drop starTi ∈ lang (symbols (pattern.drop starPi))

section Steps

variable {pattern text : List UInt8} {pi ti : Nat}

/-- The pattern after a star is the stretch followed by the pattern from `pi`. -/
theorem drop_eq_stretch_append {starPi : Nat} (h : starPi < pi) :
    pattern.drop (starPi + 1) = stretch pattern starPi pi ++ pattern.drop pi := by
  conv_lhs => rw [← List.take_append_drop (pi - (starPi + 1)) (pattern.drop (starPi + 1))]
  rw [List.drop_drop, show starPi + 1 + (pi - (starPi + 1)) = pi by omega, stretch]

/-- The stretch grows by the byte at `pi`. -/
theorem stretch_succ {starPi : Nat} {b : UInt8} (h : starPi < pi) (hb : pattern[pi]? = some b) :
    stretch pattern starPi (pi + 1) = stretch pattern starPi pi ++ [b] := by
  rw [stretch, stretch, show pi + 1 - (starPi + 1) = pi - (starPi + 1) + 1 by omega,
    List.take_add_one, List.getElem?_drop, show starPi + 1 + (pi - (starPi + 1)) = pi by omega, hb]
  rfl

theorem take_drop_succ {starTi : Nat} (h : starTi ≤ ti) (hti : ti < text.length) :
    (text.drop starTi).take (ti + 1 - starTi) = (text.drop starTi).take (ti - starTi) ++ [text[ti]] := by
  rw [show ti + 1 - starTi = ti - starTi + 1 by omega, List.take_add_one, List.getElem?_drop,
    show starTi + (ti - starTi) = ti by omega, List.getElem?_eq_getElem hti]
  rfl

/-- The byte the loop matches at `pi`: `?` or the text's byte, and, the text having no `*`,
not a star. -/
theorem matched_byte (hstar : '*'.toUInt8 ∉ text) (hti : ti < text.length)
    (hm : pattern[pi]? = some '?'.toUInt8 ∨ pattern[pi]? = text[ti]?) :
    ∃ b, pattern[pi]? = some b ∧ (b = '?'.toUInt8 ∨ b = text[ti]) ∧ b ≠ '*'.toUInt8 := by
  rw [List.getElem?_eq_getElem hti] at hm
  rcases hm with hm | hm
  · exact ⟨_, hm, .inl rfl, by decide⟩
  · refine ⟨_, hm, .inr rfl, fun h => hstar (h ▸ List.getElem_mem hti)⟩

/-- A byte the loop matches consumes one byte of the text. -/
theorem drop_mem_lang_advance (hstar : '*'.toUInt8 ∉ text) (hti : ti < text.length)
    (hm : pattern[pi]? = some '?'.toUInt8 ∨ pattern[pi]? = text[ti]?) :
    text.drop ti ∈ lang (symbols (pattern.drop pi)) ↔
      text.drop (ti + 1) ∈ lang (symbols (pattern.drop (pi + 1))) := by
  obtain ⟨b, hb, hbm, hbs⟩ := matched_byte hstar hti hm
  rw [List.drop_eq_getElem_cons hti, drop_eq_cons_of_getElem? hb, symbols, List.map_cons]
  exact cons_mem_lang_globSym hbm hbs

theorem LoopInv.advance {star : Option (Nat × Nat)} (hstar : '*'.toUInt8 ∉ text)
    (h : LoopInv pattern text pi ti star) (hti : ti < text.length)
    (hm : pattern[pi]? = some '?'.toUInt8 ∨ pattern[pi]? = text[ti]?) :
    LoopInv pattern text (pi + 1) (ti + 1) star := by
  obtain ⟨b, hb, hbm, hbs⟩ := matched_byte hstar hti hm
  have hpi := (List.getElem?_eq_some_iff.mp hb).1
  cases star with
  | none => exact ⟨by omega, by omega⟩
  | some s =>
      obtain ⟨starPi, starTi⟩ := s
      obtain ⟨hsp, hlt, -, hle, -, hfree, hseg⟩ := h
      -- the stretch and the text under it each grow by one byte, and those bytes match
      have hbyte : [text[ti]] ∈ lang (symbols [b]) :=
        (cons_mem_lang_globSym (p := []) hbm hbs).mpr (by simp [Language.mem_one])
      refine ⟨hsp, by omega, hpi, by omega, hti, ?_, ?_⟩
      · rw [stretch_succ hlt hb]
        simpa [hbs.symm] using hfree
      · rw [stretch_succ hlt hb, take_drop_succ hle hti, symbols, List.map_append, lang_append,
          Language.mem_mul]
        exact ⟨_, hseg, _, hbyte, rfl⟩

theorem Target.advance {star : Option (Nat × Nat)} (hstar : '*'.toUInt8 ∉ text)
    (hti : ti < text.length) (hm : pattern[pi]? = some '?'.toUInt8 ∨ pattern[pi]? = text[ti]?) :
    Target pattern text pi ti star ↔ Target pattern text (pi + 1) (ti + 1) star := by
  cases star with
  | none => exact drop_mem_lang_advance hstar hti hm
  | some s => exact Iff.rfl

/-- Meeting a star: the new remembered star decides what the old one did, since the stretch
before it has already matched. -/
theorem Target.star {star : Option (Nat × Nat)} (h : LoopInv pattern text pi ti star)
    (hs : pattern[pi]? = some '*'.toUInt8) :
    Target pattern text pi ti star ↔ Target pattern text (pi + 1) ti (some (pi, ti)) := by
  cases star with
  | none => exact Iff.rfl
  | some s =>
      obtain ⟨starPi, starTi⟩ := s
      obtain ⟨hsp, hlt, -, hle, -, hfree, hseg⟩ := h
      simp only [Target]
      rw [← List.take_append_drop (ti - starTi) (text.drop starTi), List.drop_drop,
        show starTi + (ti - starTi) = ti by omega, drop_eq_cons_of_getElem? hsp,
        drop_eq_stretch_append hlt, drop_eq_cons_of_getElem? hs, symbols, List.map_cons,
        List.map_append, List.map_cons, globSym_star, ← symbols, ← symbols]
      exact append_mem_lang_star_starFree_star (star_mem_symbols.not.mpr hfree) hseg

theorem LoopInv.star {star : Option (Nat × Nat)} (h : LoopInv pattern text pi ti star)
    (hs : pattern[pi]? = some '*'.toUInt8) :
    LoopInv pattern text (pi + 1) ti (some (pi, ti)) := by
  have hpi := (List.getElem?_eq_some_iff.mp hs).1
  have hti : ti ≤ text.length := by
    cases star with
    | none => exact h.2
    | some s => exact h.2.2.2.2.1
  refine ⟨hs, by omega, hpi, le_rfl, hti, ?_, ?_⟩ <;> simp [stretch, symbols, Language.mem_one]

/-- Retrying the star one byte further on loses nothing: the stretch cannot match where it
started, since it was followed by a mismatch there. -/
theorem Target.backtrack {starPi starTi : Nat}
    (h : LoopInv pattern text pi ti (some (starPi, starTi))) (hti : ti < text.length)
    (hm : ¬(pattern[pi]? = some '?'.toUInt8 ∨ pattern[pi]? = text[ti]?))
    (hs : ¬pattern[pi]? = some '*'.toUInt8) :
    Target pattern text pi ti (some (starPi, starTi)) ↔
      Target pattern text (starPi + 1) (starTi + 1) (some (starPi, starTi + 1)) := by
  obtain ⟨hsp, hlt, -, hle, -, hfree, hseg⟩ := h
  simp only [Target]
  rw [drop_eq_cons_of_getElem? hsp, symbols, List.map_cons, globSym_star, ← symbols,
    List.drop_eq_getElem_cons (by omega : starTi < text.length), cons_mem_lang_star_cons,
    ← List.drop_eq_getElem_cons (by omega : starTi < text.length)]
  refine or_iff_right fun hfull => ?_
  -- the stretch takes the text up to `ti`, and what is left fails at `ti`
  rw [drop_eq_stretch_append hlt, symbols, List.map_append, ← symbols, ← symbols,
    mem_lang_append_of_starFree (star_mem_symbols.not.mpr hfree)] at hfull
  have hlen : (stretch pattern starPi pi).length = ti - starTi := by
    have := length_of_mem_lang (star_mem_symbols.not.mpr hfree) hseg
    simp only [List.length_take, List.length_drop, symbols, List.length_map] at this
    omega
  rw [symbols, List.length_map, hlen, List.drop_drop, show starTi + (ti - starTi) = ti by omega]
    at hfull
  exact drop_not_mem_lang_of_mismatch hti hm hs hfull.2

theorem LoopInv.backtrack {starPi starTi : Nat}
    (h : LoopInv pattern text pi ti (some (starPi, starTi))) (hti : ti < text.length) :
    LoopInv pattern text (starPi + 1) (starTi + 1) (some (starPi, starTi + 1)) := by
  obtain ⟨hsp, hlt, hpi, hle, -, -, -⟩ := h
  refine ⟨hsp, by omega, by omega, le_rfl, by omega, ?_, ?_⟩ <;>
    simp [stretch, symbols, Language.mem_one]

/-- At the end of the text the loop's answer, all stars left in the pattern, is the target. -/
theorem Target.exit {star : Option (Nat × Nat)} (h : LoopInv pattern text pi ti star)
    (hti : ¬ti < text.length) :
    (skipStars pattern pi == pattern.length) = true ↔ Target pattern text pi ti star := by
  rw [beq_iff_eq]
  cases star with
  | none =>
      obtain ⟨hpi, hle⟩ := h
      rw [skipStars_eq_length hpi, Target, List.drop_eq_nil_of_le (show text.length ≤ ti by omega),
        nil_mem_lang, forall_mem_symbols_star]
  | some s =>
      obtain ⟨starPi, starTi⟩ := s
      obtain ⟨hsp, hlt, hpi, hle, hle', hfree, hseg⟩ := h
      rw [List.take_of_length_le (by simp; omega)] at hseg
      rw [skipStars_eq_length hpi, Target, drop_eq_cons_of_getElem? hsp, drop_eq_stretch_append hlt,
        symbols, List.map_cons, globSym_star, List.map_append, ← symbols, ← symbols,
        mem_lang_star_starFree (star_mem_symbols.not.mpr hfree) hseg, nil_mem_lang,
        forall_mem_symbols_star]

end Steps

/-! ### The loop decides the language -/

/-- **The loop decides its target** from every state satisfying the invariant, for a text with
no `*` byte. The induction follows the loop's own recursion, one case per branch. -/
theorem globLoop_iff {pattern text : List UInt8} (hstar : '*'.toUInt8 ∉ text) :
    ∀ {pi ti : Nat} {star : Option (Nat × Nat)}, LoopInv pattern text pi ti star →
      (globLoop pattern text pi ti star = true ↔ Target pattern text pi ti star) := by
  intro pi ti star h
  fun_induction globLoop pattern text pi ti star with
  | case1 pi ti star hti hm ih =>
      rw [ih (h.advance hstar hti hm), ← Target.advance hstar hti hm]
  | case2 pi ti star hti hm hs ih =>
      rw [ih (h.star hs), ← Target.star h hs]
  | case3 pi ti hti hm hs starPi starTi ih =>
      rw [ih (h.backtrack hti), ← Target.backtrack h hti hm hs]
  | case4 pi ti hti hm hs =>
      simpa [Target] using drop_not_mem_lang_of_mismatch hti hm hs
  | case5 pi ti star hti =>
      exact Target.exit h hti

/-- **`glob_match` decides the glob language** of its pattern, for every pattern and every text
with no `*` byte. -/
theorem globMatch_iff {pattern text : List UInt8} (hstar : '*'.toUInt8 ∉ text) :
    globMatch pattern text = true ↔ text ∈ lang (symbols pattern) :=
  globLoop_iff hstar (show LoopInv pattern text 0 0 none from ⟨Nat.zero_le _, Nat.zero_le _⟩)

/-- `"a*?c"` against `"abbc"`, a text with no `*`. -/
theorem globMatch_iff_abbc :
    '*'.toUInt8 ∉ ['a'.toUInt8, 'b'.toUInt8, 'b'.toUInt8, 'c'.toUInt8] ∧
      (globMatch ['a'.toUInt8, '*'.toUInt8, '?'.toUInt8, 'c'.toUInt8]
          ['a'.toUInt8, 'b'.toUInt8, 'b'.toUInt8, 'c'.toUInt8] = true ↔
        ['a'.toUInt8, 'b'.toUInt8, 'b'.toUInt8, 'c'.toUInt8] ∈
          lang (symbols ['a'.toUInt8, '*'.toUInt8, '?'.toUInt8, 'c'.toUInt8])) :=
  ⟨by decide, globMatch_iff (by decide)⟩

/-- A `*` byte in the text: at the pattern's `*` the first branch compares the two bytes, finds
them equal and moves past the star as if it were a plain byte, so the star is never remembered
and the `x` after it has nothing left to match. `"*x"` is in the language of `"*"`. -/
theorem globMatch_starInText :
    globMatch ['*'.toUInt8] ['*'.toUInt8, 'x'.toUInt8] = false ∧
      ['*'.toUInt8, 'x'.toUInt8] ∈ lang (symbols ['*'.toUInt8]) := by
  refine ⟨?_, by decide⟩
  rw [globMatch, globLoop, if_pos (by decide), if_pos (by decide), globLoop, if_pos (by decide),
    if_neg (by decide), if_neg (by decide)]

end Atom.Terminal
