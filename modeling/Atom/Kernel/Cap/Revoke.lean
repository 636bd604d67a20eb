import Atom.Lib.Graph
import Atom.Kernel.Cap.Manager

/-!
# Capabilities — what `revoke` removes

`revoke` is a depth-first walk over the children lists that deletes each capability as it visits
it, from the global map and from its owner's table, and skips the children already gone.  Such a
walk deletes exactly what the handle reaches along the children lists of the map it started
from (`Lib.Graph.Reach`), whatever else the map holds:

* `revokeAux_of_not_mem`: an absent handle gives `NotFound` and changes nothing;
* `revokeAux_of_mem`, the **revocation spec**: with fuel above the size of the map, a present
  handle gives `Ok` with a list, without repeats, of exactly what it reaches, and the new state is
  the old one with exactly those handles deleted from the global map and from every table
  (`Revoked`).  The fuel of `revoke` is the size plus one, so the bound never cuts the walk
  short (`revoke_of_mem`).

Two facts of the state are needed and kept (`WalkInv`): every handle in a table is in the global
map with that thread as its owner, so deleting from the owner's table deletes every copy; and the
thread ids are distinct, so the thread `lookup` finds is the only one with its id.
-/

namespace Atom

open Lib.Graph Lib.KeyedList

/-! ### Deleting handles from the tables -/

/-- `t'` is `t` with the handles satisfying `R` deleted from its table, and nothing else
changed. -/
def Thread.TableRemoved (t' t : Thread) (R : CapHandle → Prop) : Prop :=
  ∃ caps, t' = { t with capabilityTable := { t.capabilityTable with capabilities := caps } } ∧
    Removed caps t.capabilityTable.capabilities R

namespace Thread

variable {t t' t'' : Thread} {R S : CapHandle → Prop}

theorem tableRemoved_self (t : Thread) : t.TableRemoved t fun _ => False :=
  ⟨t.capabilityTable.capabilities, rfl, removed_self⟩

theorem TableRemoved.trans (h₁ : t'.TableRemoved t R) (h₂ : t''.TableRemoved t' S) :
    t''.TableRemoved t fun k => R k ∨ S k := by
  obtain ⟨c₁, rfl, hc₁⟩ := h₁
  obtain ⟨c₂, rfl, hc₂⟩ := h₂
  exact ⟨c₂, rfl, hc₁.trans hc₂⟩

theorem TableRemoved.id_eq (h : t'.TableRemoved t R) : t'.id = t.id := by
  obtain ⟨_, rfl, _⟩ := h
  rfl

theorem TableRemoved.mem_iff (h : t'.TableRemoved t R) {k : CapHandle} :
    k ∈ t'.capabilityTable.capabilities ↔ k ∈ t.capabilityTable.capabilities ∧ ¬R k := by
  obtain ⟨_, rfl, hc⟩ := h
  exact hc.mem_iff

end Thread

namespace ThreadList

/-- `ts'` is `ts` with the handles satisfying `R` deleted from every table. -/
def TablesRemoved (ts' ts : ThreadList) (R : CapHandle → Prop) : Prop :=
  ∃ g : Thread → Thread, ts' = ts.map g ∧ ∀ t ∈ ts, (g t).TableRemoved t R

variable {ts ts' ts'' : ThreadList} {R S : CapHandle → Prop}

theorem tablesRemoved_self (ts : ThreadList) : TablesRemoved ts ts fun _ => False :=
  ⟨id, (List.map_id ts).symm, fun t _ => Thread.tableRemoved_self t⟩

theorem TablesRemoved.trans (h₁ : TablesRemoved ts' ts R) (h₂ : TablesRemoved ts'' ts' S) :
    TablesRemoved ts'' ts fun k => R k ∨ S k := by
  obtain ⟨g₁, rfl, hg₁⟩ := h₁
  obtain ⟨g₂, rfl, hg₂⟩ := h₂
  refine ⟨g₂ ∘ g₁, List.map_map, fun t ht => ?_⟩
  exact (hg₁ t ht).trans (hg₂ (g₁ t) (List.mem_map_of_mem ht))

theorem TablesRemoved.congr (h : TablesRemoved ts' ts R) (hRS : ∀ k, R k ↔ S k) :
    TablesRemoved ts' ts S := by
  obtain ⟨g, rfl, hg⟩ := h
  refine ⟨g, rfl, fun t ht => ?_⟩
  obtain ⟨caps, e, hc⟩ := hg t ht
  exact ⟨caps, e, hc.congr hRS⟩

theorem TablesRemoved.mem (h : TablesRemoved ts' ts R) {t' : Thread} (ht' : t' ∈ ts') :
    ∃ t ∈ ts, t'.TableRemoved t R := by
  obtain ⟨g, rfl, hg⟩ := h
  obtain ⟨t, ht, rfl⟩ := List.mem_map.mp ht'
  exact ⟨t, ht, hg t ht⟩

theorem TablesRemoved.map_id (h : TablesRemoved ts' ts R) :
    ts'.map Thread.id = ts.map Thread.id := by
  obtain ⟨g, rfl, hg⟩ := h
  rw [List.map_map]
  exact List.map_congr_left fun t ht => (hg t ht).id_eq

theorem TablesRemoved.nodupKeys (h : TablesRemoved ts' ts R) (hnd : NodupKeys Thread.id ts) :
    NodupKeys Thread.id ts' := by
  unfold NodupKeys
  rwa [h.map_id]

/-- Removing `h` from the table of thread `o` removes it from every table, when only `o` can
hold it. -/
theorem removeCapability_tablesRemoved (hnd : NodupKeys Thread.id ts) {o : ThreadId}
    {h : CapHandle} (hown : ∀ t ∈ ts, h ∈ t.capabilityTable.capabilities → t.id = o) :
    TablesRemoved (ts.removeCapability o h).2 ts (· = h) := by
  unfold removeCapability
  cases hl : ts.lookup o with
  | none =>
      -- without a thread `o` no table holds `h`, and nothing changes
      refine ⟨id, (List.map_id ts).symm, fun t ht => ⟨_, rfl, removed_of_not_mem ?_⟩⟩
      rintro k rfl hk
      exact lookup_eq_none_iff.mp hl t ht (hown t ht hk)
  | some t₀ =>
      refine ⟨fun t => if t.id = o then
          { t with capabilityTable := (t₀.capabilityTable.remove h).2 } else t,
        update_eq_map hnd o _, fun t ht => ?_⟩
      by_cases hto : t.id = o
      · have ht₀ : t₀ = t := Option.some_inj.mp
          (hl.symm.trans ((lookup_eq_some_iff hnd).mpr ⟨ht, hto⟩))
        subst ht₀
        exact ⟨_, if_pos hto, removed_erase h⟩
      · refine ⟨_, (if_neg hto).trans rfl, removed_of_not_mem ?_⟩
        rintro k rfl hk
        exact hto (hown t ht hk)

end ThreadList

/-! ### The walk -/

namespace CapSys

open ThreadList

/-- Every handle in a thread's table is in the global map, with that thread as its owner. -/
def HoldersOwn (caps : CapMap) (ts : ThreadList) : Prop :=
  ∀ t ∈ ts, ∀ h ∈ t.capabilityTable.capabilities, ∃ g, caps.lookup h = some g ∧ g.owner = t.id

/-- What the walk of `revoke` keeps. -/
structure WalkInv (s : CapSys) : Prop where
  holdersOwn : HoldersOwn s.globalCaps s.threads
  nodupIds : NodupKeys Thread.id s.threads

/-- `s'` is `s` with the handles satisfying `R` deleted from the global map and from every
table. -/
structure Revoked (s' s : CapSys) (R : CapHandle → Prop) : Prop where
  nextHandle : s'.nextHandle = s.nextHandle
  globalCaps : Removed s'.globalCaps s.globalCaps R
  threads : TablesRemoved s'.threads s.threads R

variable {s s₁ s₂ : CapSys} {R S : CapHandle → Prop}

theorem revoked_self (s : CapSys) : Revoked s s fun _ => False :=
  ⟨rfl, removed_self, tablesRemoved_self s.threads⟩

theorem Revoked.trans (h₁ : Revoked s₁ s R) (h₂ : Revoked s₂ s₁ S) :
    Revoked s₂ s fun k => R k ∨ S k :=
  ⟨h₂.nextHandle.trans h₁.nextHandle, h₁.globalCaps.trans h₂.globalCaps,
    h₁.threads.trans h₂.threads⟩

theorem Revoked.congr (h : Revoked s₁ s R) (hRS : ∀ k, R k ↔ S k) : Revoked s₁ s S :=
  ⟨h.nextHandle, h.globalCaps.congr hRS, h.threads.congr hRS⟩

theorem Revoked.card_le (h : Revoked s₁ s R) :
    s₁.globalCaps.keys.card ≤ s.globalCaps.keys.card :=
  Finset.card_le_card h.globalCaps.subset

/-- Deleting from both views keeps the walk invariant. -/
theorem Revoked.walkInv (h : Revoked s₁ s R) (hw : WalkInv s) : WalkInv s₁ := by
  refine ⟨fun t' ht' k hk => ?_, h.threads.nodupKeys hw.nodupIds⟩
  obtain ⟨t, ht, htr⟩ := h.threads.mem ht'
  obtain ⟨hkt, hkR⟩ := htr.mem_iff.mp hk
  obtain ⟨g, hg, hgo⟩ := hw.holdersOwn t ht k hkt
  exact ⟨g, ((h.globalCaps k).2 hkR).trans hg, hgo.trans htr.id_eq.symm⟩

/-- One visit: `handle` leaves the global map and its owner's table. -/
theorem revoked_visit (hw : WalkInv s) {handle : CapHandle} {cap : Capability}
    (hcap : s.globalCaps.lookup handle = some cap) :
    Revoked { s with globalCaps := s.globalCaps.erase handle,
                     threads := (s.threads.removeCapability cap.owner handle).2 } s (· = handle) := by
  refine ⟨rfl, removed_erase handle, removeCapability_tablesRemoved hw.nodupIds ?_⟩
  intro t ht hk
  obtain ⟨g, hg, hgo⟩ := hw.holdersOwn t ht handle hk
  rw [hcap, Option.some_inj] at hg
  exact hgo.symm.trans (congrArg Capability.owner hg.symm)

/-- `rec` revokes, from every state of fewer than `N` entries that keeps the walk invariant,
exactly what the handle reaches. -/
def RevokesBelow (rec : CapSys → CapHandle → Except CapError (List CapHandle) × CapSys)
    (N : Nat) : Prop :=
  ∀ s c, s.globalCaps.keys.card < N → WalkInv s →
    (c ∉ s.globalCaps → rec s c = (.error .notFound, s)) ∧
    (c ∈ s.globalCaps → ∃ L, (rec s c).1 = .ok L ∧ L.Nodup ∧
      (∀ d, d ∈ L ↔ Reach Capability.children s.globalCaps c d) ∧
      Revoked (rec s c).2 s (Reach Capability.children s.globalCaps c))

/-- **The loop over the children**: when each call revokes what its handle reaches, the loop
revokes what the list reaches, and appends it once. -/
theorem foldl_revokeStep {rec : CapSys → CapHandle → Except CapError (List CapHandle) × CapSys}
    {N : Nat} (hrec : RevokesBelow rec N) :
    ∀ (cs acc : List CapHandle) (s : CapSys), s.globalCaps.keys.card < N → WalkInv s →
      ∃ L, (cs.foldl (revokeStep rec) (acc, s)).1 = acc ++ L ∧ L.Nodup ∧
        (∀ d, d ∈ L ↔ ReachFrom Capability.children s.globalCaps cs d) ∧
        Revoked (cs.foldl (revokeStep rec) (acc, s)).2 s
          (ReachFrom Capability.children s.globalCaps cs)
  | [], acc, s, _, _ =>
      ⟨[], (List.append_nil acc).symm, List.nodup_nil, by simp,
        (revoked_self s).congr fun _ => by simp⟩
  | c :: cs, acc, s, hN, hw => by
      by_cases hc : c ∈ s.globalCaps
      · -- `c` is revoked first; the rest of the loop runs over what is left
        obtain ⟨Lc, hLc, hnd, hmem, hrev⟩ := (hrec s c hN hw).2 hc
        have hstep : revokeStep rec (acc, s) c = (acc ++ Lc, (rec s c).2) := by
          simp only [revokeStep]
          rw [← Prod.mk.eta (p := rec s c), hLc]
        obtain ⟨L, hL, hndL, hmemL, hrevL⟩ := foldl_revokeStep hrec cs (acc ++ Lc) (rec s c).2
          (lt_of_le_of_lt hrev.card_le hN) (hrev.walkInv hw)
        have hsplit : ∀ d, ReachFrom Capability.children s.globalCaps (c :: cs) d ↔
            Reach Capability.children s.globalCaps c d ∨
              ReachFrom Capability.children (rec s c).2.globalCaps cs d :=
          fun _ => reachFrom_cons_iff hrev.globalCaps
        refine ⟨Lc ++ L, ?_, ?_, fun d => ?_, ?_⟩
        · rw [List.foldl_cons, hstep, hL, List.append_assoc]
        · refine List.nodup_append.mpr ⟨hnd, hndL, fun a ha b hb hab => ?_⟩
          subst hab
          obtain ⟨d, -, hdb⟩ := (hmemL a).mp hb
          exact (hrev.globalCaps.mem_iff.mp hdb.mem).2 ((hmem a).mp ha)
        · rw [List.mem_append, hmem, hmemL, hsplit]
        · rw [List.foldl_cons, hstep]
          exact (hrev.trans hrevL).congr fun d => (hsplit d).symm
      · -- an absent child: the call fails and the state stays
        have hstep : revokeStep rec (acc, s) c = (acc, s) := by
          simp only [revokeStep, (hrec s c hN hw).1 hc]
        obtain ⟨L, hL, hndL, hmemL, hrevL⟩ := foldl_revokeStep hrec cs acc s hN hw
        refine ⟨L, ?_, hndL, fun d => ?_, ?_⟩
        · rw [List.foldl_cons, hstep, hL]
        · rw [hmemL, reachFrom_cons_of_not_mem hc]
        · rw [List.foldl_cons, hstep]
          exact hrevL.congr fun d => (reachFrom_cons_of_not_mem hc).symm

theorem revokeAux_of_not_mem {handle : CapHandle} (hh : handle ∉ s.globalCaps) (n : Nat)
    (revoker : ThreadId) : revokeAux n s handle revoker = (.error .notFound, s) := by
  cases n with
  | zero => rfl
  | succ n => simp [revokeAux, Finmap.lookup_eq_none.mpr hh]

/-- `revokeAux` unfolded at a present handle. -/
theorem revokeAux_succ_of_lookup {handle : CapHandle} {cap : Capability}
    (hcap : s.globalCaps.lookup handle = some cap) (n : Nat) (revoker : ThreadId) :
    revokeAux (n + 1) s handle revoker =
      let s₂ : CapSys := { s with globalCaps := s.globalCaps.erase handle,
                                  threads := (s.threads.removeCapability cap.owner handle).2 }
      let res := cap.children.foldl (revokeStep fun s c => revokeAux n s c revoker) ([handle], s₂)
      (.ok res.1, res.2) := by
  simp only [revokeAux, hcap]

/-- **Revocation spec**, by induction on the fuel. -/
theorem revokeAux_revokes (revoker : ThreadId) :
    ∀ n, RevokesBelow (fun s c => revokeAux n s c revoker) n
  | 0 => fun _ _ hN => absurd hN (Nat.not_lt_zero _)
  | n + 1 => by
      intro s h hN hw
      refine ⟨fun hh => revokeAux_of_not_mem hh (n + 1) revoker, fun hh => ?_⟩
      obtain ⟨cap, hcap⟩ := Finmap.mem_iff.mp hh
      have hvisit := revoked_visit hw hcap
      -- after the visit the map has one entry less, so the children are revoked with fuel `n`
      have hcard : (s.globalCaps.erase h).keys.card < n := by
        have hpos : 0 < s.globalCaps.keys.card := Finset.card_pos.mpr ⟨h, Finmap.mem_keys.mpr hh⟩
        rw [Finmap.keys_erase, Finset.card_erase_of_mem (Finmap.mem_keys.mpr hh)]
        omega
      obtain ⟨L, hL, hnd, hmem, hrev⟩ :=
        foldl_revokeStep (revokeAux_revokes revoker n) cap.children [h] _ hcard (hvisit.walkInv hw)
      have hroot : ∀ d, Reach Capability.children s.globalCaps h d ↔
          d = h ∨ ReachFrom Capability.children (s.globalCaps.erase h) cap.children d :=
        fun _ => reach_root_iff hcap
      refine ⟨h :: L, ?_, ?_, fun d => ?_, ?_⟩
      · show (revokeAux (n + 1) s h revoker).1 = _
        rw [revokeAux_succ_of_lookup hcap]
        exact congrArg Except.ok hL
      · refine List.nodup_cons.mpr ⟨fun hL' => ?_, hnd⟩
        obtain ⟨c, -, hc⟩ := (hmem h).mp hL'
        exact (Finmap.mem_erase.mp hc.mem).1 rfl
      · rw [List.mem_cons, hmem, hroot]
      · show Revoked (revokeAux (n + 1) s h revoker).2 s _
        rw [revokeAux_succ_of_lookup hcap]
        exact (hvisit.trans hrev).congr fun d => (hroot d).symm

/-- The spec at the fuel `revoke` gives. -/
theorem revoke_of_mem (hw : WalkInv s) {handle : CapHandle} (hh : handle ∈ s.globalCaps)
    (revoker : ThreadId) :
    ∃ L, (s.revoke handle revoker).1 = .ok L ∧ L.Nodup ∧
      (∀ d, d ∈ L ↔ Reach Capability.children s.globalCaps handle d) ∧
      Revoked (s.revoke handle revoker).2 s (Reach Capability.children s.globalCaps handle) :=
  (revokeAux_revokes revoker _ s handle (Nat.lt_succ_self _) hw).2 hh

theorem revoke_of_not_mem {handle : CapHandle} (hh : handle ∉ s.globalCaps) (revoker : ThreadId) :
    s.revoke handle revoker = (.error .notFound, s) :=
  revokeAux_of_not_mem hh _ revoker

/-- The revoker is passed down the recursion and read nowhere: it only names the audit entry. -/
theorem revokeAux_revoker (n : Nat) (s : CapSys) (handle : CapHandle) (r r' : ThreadId) :
    revokeAux n s handle r = revokeAux n s handle r' := by
  induction n generalizing s handle with
  | zero => rfl
  | succ n ih =>
      have hrec : (fun s c => revokeAux n s c r) = fun s c => revokeAux n s c r' := by
        funext s c
        exact ih s c
      simp only [revokeAux, hrec]

theorem revoke_revoker (s : CapSys) (handle : CapHandle) (r r' : ThreadId) :
    s.revoke handle r = s.revoke handle r' :=
  revokeAux_revoker _ s handle r r'

end CapSys

end Atom
