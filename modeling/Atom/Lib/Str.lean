import Mathlib.Data.List.DropRight
import Mathlib.Data.List.Infix
import Mathlib.Data.List.Basic

/-!
# Library — the text operations of Rust's `str`, over lists

A parser that reads a `&str` through a handful of `str` methods is modelled here over the list of
its characters, or of any elements where the method does not look at characters:

* `trim` drops the elements satisfying `p` at both ends: `str::trim` is `trim isWhitespace`, with
  `isWhitespace` the white space of `char::is_whitespace`;
* `splitOnce` cuts at the first separator, as `str::split_once`;
* `lines` cuts a text as `str::lines`: at each `'\n'`, with a `'\r'` just before it dropped too,
  and with no empty line after a final `'\n'`.

`str::split` is `List.splitOn`, and `strip_prefix` and `strip_suffix` are `List.dropPrefix?` and
`List.dropSuffix?`.

The lemmas are where a printer and a parser meet.  Each operation gives back what a printer put
together: `trim` leaves a list whose ends it does not drop (`trim_append_of_forall`),
`splitOnce` finds the first separator (`splitOnce_append_cons`), `lines` cuts a text whose lines
each end in `'\n'` back into those lines (`lines_flatMap`).  And the pieces an operation returns are
sublists of its input, with no separator in them (`trim_sublist`, `sublist_of_mem_splitOn`,
`not_mem_of_mem_lines`, `mem_of_mem_intercalate` for the pieces a printer joins).

Nothing here names a component of the kernel.
-/

namespace Atom.Lib.Str

variable {α : Type*}

/-! ### `trim` -/

/-- `str::trim`, for the elements satisfying `p`. -/
def trim (p : α → Bool) (l : List α) : List α := (l.dropWhile p).rdropWhile p

variable {p : α → Bool}

theorem trim_sublist (l : List α) : (trim p l).Sublist l :=
  (List.rdropWhile_prefix p _).sublist.trans (List.dropWhile_sublist p)

/-- A list whose first and last elements are not dropped is its own `trim`. -/
theorem trim_eq_self {l : List α} (hhead : ∀ a ∈ l.head?, p a = false)
    (hlast : ∀ a ∈ l.getLast?, p a = false) : trim p l = l := by
  have hdrop : l.dropWhile p = l := by
    cases l with
    | nil => rfl
    | cons a l => exact List.dropWhile_cons_of_neg (by simp [hhead a rfl])
  rw [trim, hdrop, List.rdropWhile_eq_self_iff]
  intro hl
  simp [hlast _ (List.getLast?_eq_some_getLast hl)]

/-- What `trim` leaves of dropped elements followed by a list whose ends are not dropped. -/
theorem trim_append_of_forall {w l : List α} (hw : ∀ a ∈ w, p a = true)
    (hhead : ∀ a ∈ l.head?, p a = false) (hlast : ∀ a ∈ l.getLast?, p a = false) :
    trim p (w ++ l) = l := by
  rw [trim, List.dropWhile_append_of_pos hw, ← trim, trim_eq_self hhead hlast]

/-- `char::is_whitespace`: the characters of Unicode's `White_Space`. -/
def isWhitespace (c : Char) : Bool :=
  let n := c.toNat
  (0x09 ≤ n && n ≤ 0x0D) || n == 0x20 || n == 0x85 || n == 0xA0 || n == 0x1680 ||
    (0x2000 ≤ n && n ≤ 0x200A) || n == 0x2028 || n == 0x2029 || n == 0x202F || n == 0x205F ||
    n == 0x3000

/-! ### `split_once` and `split` -/

section Split

variable [DecidableEq α]

/-- `str::split_once`: the parts before and after the first `sep`. -/
def splitOnce (sep : α) : List α → Option (List α × List α)
  | [] => none
  | a :: l => if a = sep then some ([], l) else (splitOnce sep l).map fun kv => (a :: kv.1, kv.2)

/-- The first separator is the one found. -/
theorem splitOnce_append_cons {sep : α} {k : List α} (hk : sep ∉ k) (v : List α) :
    splitOnce sep (k ++ sep :: v) = some (k, v) := by
  induction k with
  | nil => simp [splitOnce]
  | cons a k ih =>
      have ha : a ≠ sep := fun h => hk (h ▸ List.mem_cons_self)
      rw [List.cons_append, splitOnce, if_neg ha, ih fun h => hk (List.mem_cons_of_mem a h)]
      rfl

/-- The parts found are the text on either side of a separator. -/
theorem eq_of_splitOnce {sep : α} {l k v : List α} (h : splitOnce sep l = some (k, v)) :
    l = k ++ sep :: v := by
  induction l generalizing k with
  | nil => cases h
  | cons a l ih =>
      unfold splitOnce at h
      split_ifs at h with ha
      · cases h
        rw [ha, List.nil_append]
      · obtain ⟨⟨k', v'⟩, hkv, he⟩ := Option.map_eq_some_iff.mp h
        cases he
        rw [ih hkv, List.cons_append]

end Split

/-- Every piece `List.splitOn a` cuts is a sublist of the text, with no `a` in it. -/
theorem sublist_of_mem_splitOn [BEq α] [LawfulBEq α] {a : α} :
    ∀ {l x : List α}, x ∈ l.splitOn a → x.Sublist l ∧ a ∉ x
  | [], x, hx => by
      rw [List.splitOn_nil, List.mem_singleton] at hx
      subst hx
      exact ⟨List.nil_sublist _, List.not_mem_nil⟩
  | b :: l, x, hx => by
      rw [List.splitOn_cons_eq_if_modifyHead] at hx
      split_ifs at hx with hb
      · -- `b` is a separator: it ends an empty piece
        rcases List.mem_cons.mp hx with rfl | hx
        · exact ⟨List.nil_sublist _, List.not_mem_nil⟩
        · obtain ⟨hsub, hna⟩ := sublist_of_mem_splitOn hx
          exact ⟨hsub.cons b, hna⟩
      · -- `b` is the first element of the first piece
        have hba : b ≠ a := by simpa using hb
        obtain ⟨y, ys, hys⟩ := List.exists_cons_of_ne_nil (List.splitOn_ne_nil a l)
        rw [hys, List.modifyHead_cons] at hx
        rcases List.mem_cons.mp hx with rfl | hx
        · obtain ⟨hsub, hna⟩ := sublist_of_mem_splitOn (hys ▸ List.mem_cons_self)
          exact ⟨hsub.cons_cons b, by simp [hba.symm, hna]⟩
        · obtain ⟨hsub, hna⟩ := sublist_of_mem_splitOn (hys ▸ List.mem_cons_of_mem y hx)
          exact ⟨hsub.cons b, hna⟩

/-- An element of pieces joined by `x` is `x` or in a piece. -/
theorem mem_of_mem_intercalate {x a : α} :
    ∀ {ls : List (List α)}, a ∈ [x].intercalate ls → a = x ∨ ∃ l ∈ ls, a ∈ l
  | [], h => by simp at h
  | [l], h => .inr ⟨l, List.mem_singleton_self l, by rwa [List.intercalate_singleton] at h⟩
  | l :: l' :: ls, h => by
      rw [List.intercalate_cons_cons, List.mem_append, List.mem_append] at h
      rcases h with (h | h) | h
      · exact .inr ⟨l, List.mem_cons_self, h⟩
      · exact .inl (List.mem_singleton.mp h)
      · exact (mem_of_mem_intercalate h).imp_right fun ⟨l₁, hl₁, ha⟩ =>
          ⟨l₁, List.mem_cons_of_mem l hl₁, ha⟩

/-! ### `lines` -/

/-- What `str::lines` makes of a line it cut at a `'\n'`: a `'\r'` at its end is dropped. -/
def stripCR (l : List Char) : List Char := (l.dropSuffix? ['\r']).getD l

/-- `str::lines`. -/
def lines (s : List Char) : List (List Char) :=
  match (s.splitOn '\n').reverse with
  | [] => []
  | last :: rest => rest.reverse.map stripCR ++ (if last = [] then [] else [last])

theorem stripCR_eq_self {l : List Char} (h : l.getLast? ≠ some '\r') : stripCR l = l := by
  unfold stripCR
  cases hd : l.dropSuffix? ['\r'] with
  | none => rfl
  | some l' =>
      obtain ⟨s, hl, hs⟩ := List.dropSuffix?_eq_some_iff.mp hd
      rw [beq_iff_eq] at hs
      subst hs
      exact absurd (by rw [hl, List.getLast?_concat]) h

theorem stripCR_sublist (l : List Char) : (stripCR l).Sublist l := by
  unfold stripCR
  cases hd : l.dropSuffix? ['\r'] with
  | none => exact List.Sublist.refl l
  | some l' =>
      obtain ⟨s, hl, -⟩ := List.dropSuffix?_eq_some_iff.mp hd
      exact hl ▸ List.sublist_append_left l' s

theorem splitOn_flatMap_append {a : α} [BEq α] [LawfulBEq α] :
    ∀ {ls : List (List α)}, (∀ l ∈ ls, a ∉ l) →
      (ls.flatMap (· ++ [a])).splitOn a = ls ++ [[]]
  | [], _ => List.splitOn_nil a
  | l :: ls, h => by
      rw [List.flatMap_cons, List.append_assoc, List.singleton_append,
        List.splitOn_append_cons_self_of_not_mem (h l List.mem_cons_self),
        splitOn_flatMap_append fun l' hl' => h l' (List.mem_cons_of_mem l hl')]
      rfl

/-- A text made of lines each ended by `'\n'` is cut back into those lines, when none holds a
`'\n'` or ends in `'\r'`. -/
theorem lines_flatMap {ls : List (List Char)} (hn : ∀ l ∈ ls, '\n' ∉ l)
    (hr : ∀ l ∈ ls, l.getLast? ≠ some '\r') : lines (ls.flatMap (· ++ ['\n'])) = ls := by
  rw [lines, splitOn_flatMap_append hn, List.reverse_append]
  simp only [List.reverse_cons, List.reverse_nil, List.nil_append, List.singleton_append,
    List.reverse_reverse, if_pos, List.append_nil]
  exact (List.map_congr_left fun l hl => stripCR_eq_self (hr l hl)).trans (List.map_id ls)

/-- No line `str::lines` returns holds a `'\n'`. -/
theorem not_mem_of_mem_lines {s x : List Char} (hx : x ∈ lines s) : '\n' ∉ x := by
  unfold lines at hx
  split at hx
  · cases hx
  · rename_i last rest hsplit
    have hmem : ∀ y ∈ rest.reverse, y ∈ s.splitOn '\n' := fun y hy => by
      rw [← List.reverse_reverse (s.splitOn '\n'), hsplit, List.reverse_cons]
      exact List.mem_append_left _ hy
    rcases List.mem_append.mp hx with hx | hx
    · obtain ⟨y, hy, rfl⟩ := List.mem_map.mp hx
      exact fun h => (sublist_of_mem_splitOn (hmem y hy)).2 ((stripCR_sublist y).subset h)
    · split_ifs at hx
      · cases hx
      · rw [List.mem_singleton.mp hx]
        refine (sublist_of_mem_splitOn (l := s) ?_).2
        rw [← List.reverse_reverse (s.splitOn '\n'), hsplit, List.reverse_cons]
        exact List.mem_append_right _ (List.mem_singleton_self last)

end Atom.Lib.Str
