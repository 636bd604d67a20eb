import Mathlib

/-!
# Library — a list searched by key

A vector of records searched with `iter().find(|r| key(r) == k)` and updated in place through
`iter_mut().find(...)`: the first record with key `k` is the one every operation sees
(`lookup`) and the one it changes (`update`).  Records further down with the same key are
shadowed; when the keys are distinct (`NodupKeys`) a record is in the list exactly when it is
the one `lookup` returns for its key (`lookup_eq_some_iff`).

The update lemmas ask that the change keep the key (`KeepsKey`), as every in-place update of a
record's other fields does.
-/

namespace Atom.Lib.KeyedList

variable {β κ : Type*} [DecidableEq κ] (key : β → κ)

/-- The first record with key `k`. -/
def lookup (l : List β) (k : κ) : Option β := l.find? (fun b => key b = k)

/-- `l` with `f` applied to its first record of key `k`. -/
def update (l : List β) (k : κ) (f : β → β) : List β :=
  l.replaceF (fun b => if key b = k then some (f b) else none)

/-- `f` changes no record's key. -/
def KeepsKey (f : β → β) : Prop := ∀ b, key (f b) = key b

/-- No two records share a key. -/
def NodupKeys (l : List β) : Prop := (l.map key).Nodup

variable {key}

@[simp] theorem lookup_nil (k : κ) : lookup key [] k = none := rfl

theorem lookup_cons (b : β) (l : List β) (k : κ) :
    lookup key (b :: l) k = if key b = k then some b else lookup key l k := by
  simp only [lookup, List.find?_cons]
  split <;> simp_all

theorem key_of_lookup {l : List β} {k : κ} {b : β} (h : lookup key l k = some b) : key b = k := by
  simpa using List.find?_some h

theorem mem_of_lookup {l : List β} {k : κ} {b : β} (h : lookup key l k = some b) : b ∈ l :=
  List.mem_of_find?_eq_some h

theorem lookup_eq_none_iff {l : List β} {k : κ} : lookup key l k = none ↔ ∀ b ∈ l, key b ≠ k := by
  simp [lookup, List.find?_eq_none]

@[simp] theorem update_nil (k : κ) (f : β → β) : update key [] k f = [] := rfl

theorem update_cons_of_key {b : β} {k : κ} (hb : key b = k) (l : List β) (f : β → β) :
    update key (b :: l) k f = f b :: l := by
  simp [update, hb]

theorem update_cons_of_ne {b : β} {k : κ} (hb : key b ≠ k) (l : List β) (f : β → β) :
    update key (b :: l) k f = b :: update key l k f := by
  simp [update, hb]

theorem lookup_update_self {f : β → β} (hf : KeepsKey key f) (l : List β) (k : κ) :
    lookup key (update key l k f) k = (lookup key l k).map f := by
  induction l with
  | nil => rfl
  | cons b l ih =>
      by_cases hb : key b = k
      · rw [update_cons_of_key hb, lookup_cons, lookup_cons, hf b, if_pos hb, if_pos hb]
        rfl
      · rw [update_cons_of_ne hb, lookup_cons, lookup_cons, if_neg hb, if_neg hb, ih]

theorem lookup_update_ne {f : β → β} (hf : KeepsKey key f) (l : List β) {k k' : κ}
    (hne : k' ≠ k) : lookup key (update key l k f) k' = lookup key l k' := by
  induction l with
  | nil => rfl
  | cons b l ih =>
      by_cases hb : key b = k
      · have hb' : key b ≠ k' := fun h => hne (h ▸ hb)
        rw [update_cons_of_key hb, lookup_cons, lookup_cons, hf b, if_neg hb', if_neg hb']
      · rw [update_cons_of_ne hb, lookup_cons, lookup_cons, ih]

/-- An update passes over records of other keys. -/
theorem update_append_of_forall_ne {l₁ : List β} {k : κ} (h : ∀ b ∈ l₁, key b ≠ k)
    (l₂ : List β) (f : β → β) : update key (l₁ ++ l₂) k f = l₁ ++ update key l₂ k f := by
  induction l₁ with
  | nil => rfl
  | cons b l₁ ih =>
      rw [List.cons_append, update_cons_of_ne (h b List.mem_cons_self),
        ih fun b' hb' => h b' (List.mem_cons_of_mem b hb'), List.cons_append]

/-- An update that an observation `g` of the records does not see leaves the list as `g` sees
it. -/
theorem map_update {γ : Type*} {g : β → γ} {f : β → β} (hf : ∀ b, g (f b) = g b) (l : List β)
    (k : κ) : (update key l k f).map g = l.map g := by
  induction l with
  | nil => rfl
  | cons b l ih =>
      by_cases hb : key b = k
      · rw [update_cons_of_key hb, List.map_cons, List.map_cons, hf b]
      · rw [update_cons_of_ne hb, List.map_cons, List.map_cons, ih]

theorem map_key_update {f : β → β} (hf : KeepsKey key f) (l : List β) (k : κ) :
    (update key l k f).map key = l.map key :=
  map_update hf l k

theorem NodupKeys.update {l : List β} (h : NodupKeys key l) {f : β → β} (hf : KeepsKey key f)
    (k : κ) : NodupKeys key (update key l k f) := by
  unfold NodupKeys; rwa [map_key_update hf]

/-- With distinct keys, the in-place update changes every record of key `k`, for there is at most
one. -/
theorem update_eq_map {l : List β} (h : NodupKeys key l) (k : κ) (f : β → β) :
    update key l k f = l.map fun b => if key b = k then f b else b := by
  induction l with
  | nil => rfl
  | cons b l ih =>
      have hl : NodupKeys key l := (List.nodup_cons.mp h).2
      by_cases hb : key b = k
      · -- `b` is the only record of key `k`, so the rest is left as it is
        have hrest : ∀ b' ∈ l, key b' ≠ k := fun b' hb' e =>
          (List.nodup_cons.mp h).1 (List.mem_map.mpr ⟨b', hb', e.trans hb.symm⟩)
        rw [update_cons_of_key hb, List.map_cons, if_pos hb,
          List.map_congr_left fun b' hb' => if_neg (hrest b' hb'), List.map_id']
      · rw [update_cons_of_ne hb, ih hl, List.map_cons, if_neg hb]

/-- An update that leaves the record of key `k` as it is leaves the list. -/
theorem update_eq_self {l : List β} {k : κ} {f : β → β} (h : ∀ b ∈ l, key b = k → f b = b) :
    update key l k f = l := by
  induction l with
  | nil => rfl
  | cons b l ih =>
      by_cases hb : key b = k
      · rw [update_cons_of_key hb, h b List.mem_cons_self hb]
      · rw [update_cons_of_ne hb, ih fun b' hb' => h b' (List.mem_cons_of_mem _ hb')]

/-- Only the first record of key `k` is changed, so two changes that agree on it update alike. -/
theorem update_congr {l : List β} {k : κ} {f g : β → β}
    (h : ∀ b, lookup key l k = some b → f b = g b) : update key l k f = update key l k g := by
  induction l with
  | nil => rfl
  | cons b l ih =>
      by_cases hb : key b = k
      · rw [update_cons_of_key hb, update_cons_of_key hb, h b (by rw [lookup_cons, if_pos hb])]
      · rw [update_cons_of_ne hb, update_cons_of_ne hb,
          ih fun b' hb' => h b' (by rw [lookup_cons, if_neg hb, hb'])]

/-- An update that leaves the first record of key `k` as it is leaves the list. -/
theorem update_eq_self_of_lookup {l : List β} {k : κ} {f : β → β}
    (h : ∀ b, lookup key l k = some b → f b = b) : update key l k f = l :=
  (update_congr (g := fun b => b) h).trans (update_eq_self fun _ _ _ => rfl)

/-- With distinct keys, two updates of the same record are one. -/
theorem update_update {l : List β} (h : NodupKeys key l) {f : β → β} (hf : KeepsKey key f)
    (k : κ) (g : β → β) : update key (update key l k f) k g = update key l k (g ∘ f) := by
  rw [update_eq_map (h.update hf k), update_eq_map h, update_eq_map h, List.map_map]
  refine List.map_congr_left fun b _ => ?_
  by_cases hb : key b = k
  · simp [hb, hf b]
  · simp [hb]

/-- With distinct keys, a property of every record survives an update that keeps it on the
record of key `k`. -/
theorem forall_mem_update {P : β → Prop} {l : List β} (h : NodupKeys key l) {k : κ} {f : β → β}
    (hl : ∀ b ∈ l, key b ≠ k → P b) (hf : ∀ b ∈ l, key b = k → P (f b)) :
    ∀ x ∈ update key l k f, P x := by
  intro x hx
  rw [update_eq_map h, List.mem_map] at hx
  obtain ⟨b, hb, rfl⟩ := hx
  by_cases hbk : key b = k
  · rw [if_pos hbk]
    exact hf b hb hbk
  · rw [if_neg hbk]
    exact hl b hb hbk

/-- With distinct keys, the records of the list are the ones `lookup` returns. -/
theorem lookup_eq_some_iff {l : List β} (h : NodupKeys key l) {k : κ} {b : β} :
    lookup key l k = some b ↔ b ∈ l ∧ key b = k := by
  refine ⟨fun e => ⟨mem_of_lookup e, key_of_lookup e⟩, fun ⟨hm, hk⟩ => ?_⟩
  obtain ⟨b', hb'⟩ : ∃ b', lookup key l k = some b' :=
    Option.ne_none_iff_exists'.mp fun hn => lookup_eq_none_iff.mp hn b hm hk
  rw [hb', List.inj_on_of_nodup_map h (mem_of_lookup hb') hm ((key_of_lookup hb').trans hk.symm)]

end Atom.Lib.KeyedList

/-!
### Records sorted by key

A `BTreeMap` is its entries in increasing order of key, each key once: a list of pairs whose keys
are strictly increasing.  `insert` puts an entry before the first larger key, in place of an entry
of its key; it keeps the order (`pairwise_insert`), and an entry with a key above every key goes
last (`insert_of_forall_lt`).
-/

namespace Atom.Lib.SortedMap

variable {κ ν : Type*} [LinearOrder κ]

/-- `BTreeMap::insert`. -/
def insert (k : κ) (v : ν) : List (κ × ν) → List (κ × ν)
  | [] => [(k, v)]
  | e :: l => if k < e.1 then (k, v) :: e :: l else if k = e.1 then (k, v) :: l else e :: insert k v l

variable {k : κ} {v : ν}

theorem mem_insert_self (l : List (κ × ν)) : (k, v) ∈ insert k v l := by
  induction l with
  | nil => exact List.mem_singleton_self _
  | cons e l ih =>
      unfold insert
      split_ifs
      · exact List.mem_cons_self
      · exact List.mem_cons_self
      · exact List.mem_cons_of_mem e ih

/-- An entry of `insert k v l` is the new one or an entry of `l`. -/
theorem mem_insert {l : List (κ × ν)} {e : κ × ν} (he : e ∈ insert k v l) : e = (k, v) ∨ e ∈ l := by
  induction l with
  | nil => exact .inl (List.mem_singleton.mp he)
  | cons e' l ih =>
      unfold insert at he
      split_ifs at he
      · exact List.mem_cons.mp he
      · exact (List.mem_cons.mp he).imp_right (List.mem_cons_of_mem e')
      · rcases List.mem_cons.mp he with rfl | he
        · exact .inr List.mem_cons_self
        · exact (ih he).imp_right (List.mem_cons_of_mem e')

theorem pairwise_insert {l : List (κ × ν)} (h : (l.map Prod.fst).Pairwise (· < ·)) :
    ((insert k v l).map Prod.fst).Pairwise (· < ·) := by
  induction l with
  | nil => exact List.pairwise_singleton _ _
  | cons e l ih =>
      rw [List.map_cons, List.pairwise_cons] at h
      unfold insert
      split_ifs with hlt heq
      · -- before `e`, so below every key of `e :: l`
        rw [List.map_cons, List.map_cons, List.pairwise_cons, List.pairwise_cons]
        exact ⟨fun k' hk' => (List.mem_cons.mp hk').elim (· ▸ hlt) (lt_trans hlt <| h.1 k' ·), h⟩
      · rw [List.map_cons, List.pairwise_cons]
        exact ⟨fun k' hk' => heq ▸ h.1 k' hk', h.2⟩
      · -- after `e`: every key of the rest is `k` or a key of `l`, both above `e.1`
        rw [List.map_cons, List.pairwise_cons]
        refine ⟨fun k' hk' => ?_, ih h.2⟩
        obtain ⟨e', he', rfl⟩ := List.mem_map.mp hk'
        rcases mem_insert he' with rfl | he'
        · exact lt_of_le_of_ne (not_lt.mp hlt) (Ne.symm heq)
        · exact h.1 _ (List.mem_map_of_mem he')

/-- An entry with a key above every key goes last. -/
theorem insert_of_forall_lt {l : List (κ × ν)} (h : ∀ k' ∈ l.map Prod.fst, k' < k) :
    insert k v l = l ++ [(k, v)] := by
  induction l with
  | nil => rfl
  | cons e l ih =>
      have he : e.1 < k := h e.1 List.mem_cons_self
      rw [insert, if_neg (not_lt.mpr (le_of_lt he)), if_neg (ne_of_gt he),
        ih fun k' hk' => h k' (List.mem_cons_of_mem _ hk'), List.cons_append]

end Atom.Lib.SortedMap

