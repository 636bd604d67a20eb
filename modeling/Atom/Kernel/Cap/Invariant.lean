import Atom.Kernel.Cap.Revoke

/-!
# Capabilities — the representation invariant

`CapInv` ties the two views of the capabilities together.

* The global map (`GlobalInv`): every entry is filed under its own handle; every handle it
  names — its own, its children's, its parent's — is below the counter, and a parent below its
  child; the children lists and the parent links agree (`Lib.Graph.ChildrenAgree`); a derived
  capability has its parent's resource and a subset of its permissions.
* The tables (`TableMatches`): every entry of a thread's table is a copy (`CopyOf`) of the
  global entry of the same handle, owned there by that thread, with the same resource and
  permissions.
* The thread ids are distinct.

Every operation keeps it: `createRootCapability_inv`, `createOwnedRoot_inv`,
`deriveCapability_inv`, `transferCapability_inv`, `revoke_inv`, and `CapInv.add` for a thread
that enters the list with a fresh id and an empty table.  None of them changes the list of
thread ids (`ids_createOwnedRoot`, …), and the invariant reads of a thread only its id and its
table (`CapInv.of_tables`): a change of thread states keeps it.

Two kinds of change to the global map cover all of them: one that keeps every entry's shape
(handle, resource, permissions and links) and may move owners or drop entries
(`GlobalInv.of_sameShape`), and the insertion of a fresh root or of a derived child
(`GlobalInv.insert_root`, `GlobalInv.derive`).  A table entry only reads its global entry's
owner, resource and permissions (`SameRights`).
-/

namespace Atom

open Lib.Graph Lib.KeyedList ThreadList

namespace CapSys

/-! ### The invariant -/

/-- The global map's half of the invariant, for the counter `next`. -/
structure GlobalInv (caps : CapMap) (next : CapHandle) : Prop where
  key : ∀ h c, caps.lookup h = some c → c.handle = h
  fresh : ∀ h c, caps.lookup h = some c → h < next
  freshChildren : ∀ h c, caps.lookup h = some c → ∀ ch ∈ c.children, ch < next
  parentLt : ∀ h c p, caps.lookup h = some c → c.parent = some p → p < h
  links : ChildrenAgree Capability.children Capability.parent caps
  derived : ∀ d dc p pc, caps.lookup d = some dc → dc.parent = some p →
    caps.lookup p = some pc →
    dc.resource = pc.resource ∧ dc.permissions.isSubsetOf pc.permissions = true

/-- `c`, filed under `h` in the table of thread `owner`, is a copy of the global entry. -/
def CopyOf (caps : CapMap) (owner : ThreadId) (h : CapHandle) (c : Capability) : Prop :=
  c.handle = h ∧ c.owner = owner ∧ ∃ g, caps.lookup h = some g ∧ g.owner = owner ∧
    g.resource = c.resource ∧ g.permissions = c.permissions

/-- Every entry of the thread's table is a copy of the global entry. -/
def TableMatches (caps : CapMap) (t : Thread) : Prop :=
  ∀ h c, t.capabilityTable.get h = some c → CopyOf caps t.id h c

/-- **The representation invariant** of the capability store. -/
structure CapInv (s : CapSys) : Prop where
  global : GlobalInv s.globalCaps s.nextHandle
  tables : ∀ t ∈ s.threads, TableMatches s.globalCaps t
  nodupIds : NodupKeys Thread.id s.threads

variable {caps caps' : CapMap} {next : CapHandle} {t : Thread} {ts : ThreadList}

theorem GlobalInv.next_not_mem (hg : GlobalInv caps next) : next ∉ caps := fun hm => by
  obtain ⟨c, hc⟩ := Finmap.mem_iff.mp hm
  exact lt_irrefl _ (hg.fresh next c hc)

theorem CapInv.walkInv {s : CapSys} (hi : CapInv s) : WalkInv s := by
  refine ⟨fun t ht h hh => ?_, hi.nodupIds⟩
  obtain ⟨c, hc⟩ := Finmap.mem_iff.mp hh
  obtain ⟨-, -, g, hg, hgo, -⟩ := hi.tables t ht h c hc
  exact ⟨g, hg, hgo⟩

/-- A handle in a table is in the global map, below the counter. -/
theorem CapInv.lt_of_mem_table {s : CapSys} (hi : CapInv s) (ht : t ∈ s.threads) {h : CapHandle}
    (hh : h ∈ t.capabilityTable.capabilities) : h < s.nextHandle := by
  obtain ⟨g, hg, -⟩ := hi.walkInv.holdersOwn t ht h hh
  exact hi.global.fresh h g hg

/-! ### The global map -/

/-- **Changes that keep every entry's shape**: moving owners and dropping entries. -/
theorem GlobalInv.of_sameShape (hg : GlobalInv caps next)
    (hs : ∀ k c', caps'.lookup k = some c' → ∃ c, caps.lookup k = some c ∧
      c'.handle = c.handle ∧ c'.resource = c.resource ∧ c'.permissions = c.permissions ∧
      c'.parent = c.parent ∧ c'.children = c.children) :
    GlobalInv caps' next where
  key h c' hc' := by
    obtain ⟨c, hc, hh, -⟩ := hs h c' hc'
    exact hh.trans (hg.key h c hc)
  fresh h c' hc' := by
    obtain ⟨c, hc, -⟩ := hs h c' hc'
    exact hg.fresh h c hc
  freshChildren h c' hc' ch hch := by
    obtain ⟨c, hc, -, -, -, -, hch'⟩ := hs h c' hc'
    exact hg.freshChildren h c hc ch (hch' ▸ hch)
  parentLt h c' p hc' hp := by
    obtain ⟨c, hc, -, -, -, hpar, -⟩ := hs h c' hc'
    exact hg.parentLt h c p hc (hpar ▸ hp)
  links := by
    refine ⟨fun p pv' ch cv' hp hch hcv => ?_, fun d dv' p pv' hd hpar hp => ?_⟩
    · obtain ⟨pv, hpv, -, -, -, -, hpch⟩ := hs p pv' hp
      obtain ⟨cv, hcv0, -, -, -, hcpar, -⟩ := hs ch cv' hcv
      rw [hcpar]
      exact hg.links.parent_of_child p pv ch cv hpv (hpch ▸ hch) hcv0
    · obtain ⟨dv, hdv, -, -, -, hdpar, -⟩ := hs d dv' hd
      obtain ⟨pv, hpv, -, -, -, -, hpch⟩ := hs p pv' hp
      rw [hpch]
      exact hg.links.child_of_parent d dv p pv hdv (hdpar ▸ hpar) hpv
  derived d dv' p pv' hd hpar hp := by
    obtain ⟨dv, hdv, -, hdr, hdp, hdpar, -⟩ := hs d dv' hd
    obtain ⟨pv, hpv, -, hpr, hpp, -, -⟩ := hs p pv' hp
    rw [hdr, hpr, hdp, hpp]
    exact hg.derived d dv p pv hdv (hdpar ▸ hpar) hpv

theorem GlobalInv.removed (hg : GlobalInv caps next) {R : CapHandle → Prop}
    (hr : Removed caps' caps R) : GlobalInv caps' next :=
  hg.of_sameShape fun _ c' hc' =>
    ⟨c', hr.lookup_of_some hc', rfl, rfl, rfl, rfl, rfl⟩

/-- A fresh root, at the counter, which then moves on. -/
theorem GlobalInv.insert_root (hg : GlobalInv caps next) (resource : ResourceType)
    (owner : ThreadId) (permissions : CapPermissions) :
    GlobalInv (caps.insert next (Capability.newRoot next resource owner permissions))
      (next + 1) := by
  have hlook := lookup_insert_eq_ite caps next
    (b := Capability.newRoot next resource owner permissions)
  refine ⟨fun h c hc => ?_, fun h c hc => ?_, fun h c hc ch hch => ?_, fun h c p hc hp => ?_,
    ⟨fun p pv ch cv hp hch hcv => ?_, fun d dv p pv hd hpar hp => ?_⟩,
    fun d dv p pv hd hpar hp => ?_⟩
  all_goals simp only [hlook] at *
  · split_ifs at hc with hh
    · cases hc; exact hh.symm
    · exact hg.key h c hc
  · split_ifs at hc with hh
    · subst hh; exact Nat.lt_succ_self _
    · exact Nat.lt_succ_of_lt (hg.fresh h c hc)
  · split_ifs at hc with hh
    · cases hc; simp [Capability.newRoot] at hch
    · exact Nat.lt_succ_of_lt (hg.freshChildren h c hc ch hch)
  · split_ifs at hc with hh
    · cases hc; simp [Capability.newRoot] at hp
    · exact hg.parentLt h c p hc hp
  · split_ifs at hp hcv with hpn hcn hcn
    · cases hp; simp [Capability.newRoot] at hch
    · cases hp; simp [Capability.newRoot] at hch
    · exact absurd hcn (hg.freshChildren p pv hp ch hch).ne
    · exact hg.links.parent_of_child p pv ch cv hp hch hcv
  · split_ifs at hd hp with hdn hpn hpn
    · cases hd; simp [Capability.newRoot] at hpar
    · cases hd; simp [Capability.newRoot] at hpar
    · exact absurd hpn (lt_trans (hg.parentLt d dv p hd hpar) (hg.fresh d dv hd)).ne
    · exact hg.links.child_of_parent d dv p pv hd hpar hp
  · split_ifs at hd hp with hdn hpn hpn
    · cases hd; simp [Capability.newRoot] at hpar
    · cases hd; simp [Capability.newRoot] at hpar
    · exact absurd hpn (lt_trans (hg.parentLt d dv p hd hpar) (hg.fresh d dv hd)).ne
    · exact hg.derived d dv p pv hd hpar hp

/-- The global entry at `h` keeps, from `caps` to `caps'`, what a copy reads: owner, resource
and permissions. -/
def SameRights (caps caps' : CapMap) (h : CapHandle) : Prop :=
  ∀ g, caps.lookup h = some g → ∃ g', caps'.lookup h = some g' ∧ g'.owner = g.owner ∧
    g'.resource = g.resource ∧ g'.permissions = g.permissions

theorem sameRights_of_lookup_eq {h : CapHandle} (he : caps'.lookup h = caps.lookup h) :
    SameRights caps caps' h :=
  fun g hg => ⟨g, he.trans hg, rfl, rfl, rfl⟩

/-- What `Capability.derive` writes into the global map: the grown parent, then the child. -/
abbrev Derived (caps : CapMap) (p : CapHandle) (parent' child : Capability) : CapMap :=
  (caps.insert p parent').insert child.handle child

section Derive

variable {p : CapHandle} {parent parent' child : Capability} {newOwner : ThreadId}
  {perms : CapPermissions}

/-- An entry of the map after a derivation is the child at the counter, or an old entry below
it, whose children list gained the child if it is the parent. -/
theorem lookup_derived (hg : GlobalInv caps next) (hp : caps.lookup p = some parent)
    (hd : parent.derive next newOwner perms = .ok (parent', child)) {k : CapHandle} {c : Capability}
    (hc : (Derived caps p parent' child).lookup k = some c) :
    (next = k ∧ c = child) ∨
    (k < next ∧ ∃ c₀, caps.lookup k = some c₀ ∧ c.handle = c₀.handle ∧
      c.resource = c₀.resource ∧ c.permissions = c₀.permissions ∧ c.parent = c₀.parent ∧
      c.owner = c₀.owner ∧ (∀ x ∈ c₀.children, x ∈ c.children) ∧
      (∀ x ∈ c.children, x ∈ c₀.children ∨ (p = k ∧ next = x))) := by
  obtain ⟨-, hparent', hchild⟩ := Capability.derive_eq_ok hd
  rw [Derived, hchild, lookup_insert_eq_ite, lookup_insert_eq_ite] at hc
  split_ifs at hc with h1 h2
  · exact .inl ⟨h1.symm, (Option.some_inj.mp hc).symm.trans hchild.symm⟩
  · cases hc
    subst hparent'
    refine .inr ⟨h2 ▸ hg.fresh p parent hp, parent, h2 ▸ hp, rfl, rfl, rfl, rfl, rfl,
      fun x hx => List.mem_append_left _ hx, fun x hx => ?_⟩
    rcases List.mem_append.mp hx with hx | hx
    · exact .inl hx
    · exact .inr ⟨h2.symm, (List.mem_singleton.mp hx).symm⟩
  · exact .inr ⟨hg.fresh k c hc, c, hc, rfl, rfl, rfl, rfl, rfl, fun _ hx => hx,
      fun _ hx => .inl hx⟩

/-- Below the counter a derivation keeps the rights of every entry. -/
theorem sameRights_derived (hp : caps.lookup p = some parent)
    (hd : parent.derive next newOwner perms = .ok (parent', child)) {k : CapHandle}
    (hk : k < next) : SameRights caps (Derived caps p parent' child) k := by
  intro g hg'
  obtain ⟨-, hparent', hchild⟩ := Capability.derive_eq_ok hd
  rw [Derived, hchild, lookup_insert_eq_ite, if_neg hk.ne, lookup_insert_eq_ite]
  split_ifs with hkp
  · subst hkp hparent'
    rw [hp] at hg'
    cases hg'
    exact ⟨_, rfl, rfl, rfl, rfl⟩
  · exact ⟨g, hg', rfl, rfl, rfl⟩

/-- A derived child, at the counter, appended to its parent's children; the counter moves on. -/
theorem GlobalInv.derive (hg : GlobalInv caps next) (hp : caps.lookup p = some parent)
    (hd : parent.derive next newOwner perms = .ok (parent', child)) :
    GlobalInv (Derived caps p parent' child) (next + 1) := by
  have hnew := fun {k} {c} => lookup_derived (k := k) (c := c) hg hp hd
  obtain ⟨hsub, hparent', hchild⟩ := Capability.derive_eq_ok hd
  have hpk : parent.handle = p := hg.key p parent hp
  have hpn : p < next := hg.fresh p parent hp
  have hlookP : (Derived caps p parent' child).lookup parent.handle = some parent' := by
    rw [Derived, hchild, hpk, lookup_insert_eq_ite, if_neg hpn.ne, Finmap.lookup_insert]
  subst hparent' hchild
  refine ⟨fun h c hc => ?_, fun h c hc => ?_, fun h c hc ch hch => ?_, fun h c q hc hq => ?_,
    ⟨fun q qv ch cv hq hch hcv => ?_, fun d dv q qv hd hpar hq => ?_⟩,
    fun d dv q qv hd hpar hq => ?_⟩
  · rcases hnew hc with ⟨rfl, rfl⟩ | ⟨-, c₀, hc₀, hh, -⟩
    · rfl
    · exact hh.trans (hg.key h c₀ hc₀)
  · rcases hnew hc with ⟨rfl, -⟩ | ⟨hlt, -⟩
    · exact Nat.lt_succ_self _
    · exact Nat.lt_succ_of_lt hlt
  · rcases hnew hc with ⟨-, rfl⟩ | ⟨-, c₀, hc₀, -, -, -, -, -, -, hch₀⟩
    · simp at hch
    · rcases hch₀ ch hch with hch | ⟨-, rfl⟩
      · exact Nat.lt_succ_of_lt (hg.freshChildren h c₀ hc₀ ch hch)
      · exact Nat.lt_succ_self _
  · rcases hnew hc with ⟨rfl, rfl⟩ | ⟨-, c₀, hc₀, -, -, -, hpar, -⟩
    · cases hq
      exact hpk ▸ hpn
    · exact hg.parentLt h c₀ q hc₀ (hpar ▸ hq)
  · -- a listed child has the lister as parent; the new child is listed only by `p`
    rcases hnew hq with ⟨-, rfl⟩ | ⟨-, q₀, hq₀, -, -, -, -, -, -, hch₀⟩
    · simp at hch
    rcases hch₀ ch hch with hch | ⟨rfl, rfl⟩
    · have hlt := hg.freshChildren q q₀ hq₀ ch hch
      rcases hnew hcv with ⟨rfl, -⟩ | ⟨-, c₀, hc₀, -, -, -, hpar, -⟩
      · exact absurd hlt (lt_irrefl _)
      · exact hpar.trans (hg.links.parent_of_child q q₀ ch c₀ hq₀ hch hc₀)
    · rcases hnew hcv with ⟨-, rfl⟩ | ⟨hlt, -⟩
      · exact congrArg some hpk
      · exact absurd hlt (lt_irrefl _)
  · -- a present parent lists its children; the parent's list only grew
    rcases hnew hd with ⟨rfl, rfl⟩ | ⟨hlt, d₀, hd₀, -, -, -, hdpar, -⟩
    · cases hpar
      rw [hlookP] at hq
      cases hq
      exact List.mem_append_right _ (List.mem_singleton_self _)
    · have hqd := hg.parentLt d d₀ q hd₀ (hdpar ▸ hpar)
      rcases hnew hq with ⟨rfl, -⟩ | ⟨-, q₀, hq₀, -, -, -, -, -, hgrow, -⟩
      · exact absurd (lt_trans hqd hlt) (lt_irrefl _)
      · exact hgrow d (hg.links.child_of_parent d d₀ q q₀ hd₀ (hdpar ▸ hpar) hq₀)
  · rcases hnew hd with ⟨rfl, rfl⟩ | ⟨hlt, d₀, hd₀, -, hdr, hdp, hdpar, -⟩
    · cases hpar
      rw [hlookP] at hq
      cases hq
      exact ⟨rfl, hsub⟩
    · have hqd := hg.parentLt d d₀ q hd₀ (hdpar ▸ hpar)
      rcases hnew hq with ⟨rfl, -⟩ | ⟨-, q₀, hq₀, -, hqr, hqp, -⟩
      · exact absurd (lt_trans hqd hlt) (lt_irrefl _)
      · rw [hdr, hdp, hqr, hqp]
        exact hg.derived d d₀ q q₀ hd₀ (hdpar ▸ hpar) hq₀

end Derive

/-! ### The tables -/

theorem CopyOf.mono {o : ThreadId} {h : CapHandle} {c : Capability} (hc : CopyOf caps o h c)
    (hs : SameRights caps caps' h) : CopyOf caps' o h c := by
  obtain ⟨hh, ho, g, hg, hgo, hgr, hgp⟩ := hc
  obtain ⟨g', hg', ho', hr', hp'⟩ := hs g hg
  exact ⟨hh, ho, g', hg', ho'.trans hgo, hr'.trans hgr, hp'.trans hgp⟩

theorem TableMatches.mono (ht : TableMatches caps t)
    (hs : ∀ h ∈ t.capabilityTable.capabilities, SameRights caps caps' h) :
    TableMatches caps' t :=
  fun h c hc => (ht h c hc).mono (hs h (Finmap.mem_of_lookup_eq_some hc))

theorem TableMatches.erase (ht : TableMatches caps t) (h : CapHandle) :
    TableMatches caps { t with capabilityTable := { t.capabilityTable with
      capabilities := t.capabilityTable.capabilities.erase h } } := by
  intro k c hc
  change (t.capabilityTable.capabilities.erase h).lookup k = some c at hc
  have hk : k ≠ h := by
    rintro rfl
    rw [Finmap.lookup_erase] at hc
    cases hc
  exact ht k c ((Finmap.lookup_erase_ne hk).symm.trans hc)

theorem TableMatches.insert (ht : TableMatches caps t) {h : CapHandle} {c : Capability}
    (hc : CopyOf caps t.id h c) :
    TableMatches caps { t with capabilityTable := { t.capabilityTable with
      capabilities := t.capabilityTable.capabilities.insert h c } } := by
  intro k c' hc'
  change (t.capabilityTable.capabilities.insert h c).lookup k = some c' at hc'
  rw [lookup_insert_eq_ite] at hc'
  split_ifs at hc' with hk
  · cases hc'
    exact hk ▸ hc
  · exact ht k c' hc'

/-- A change of one thread's table, made to the thread `lookup` finds, keeps every table
matching when the new table does. -/
theorem tables_update (hnd : NodupKeys Thread.id ts) (htabs : ∀ t ∈ ts, TableMatches caps t)
    {o : ThreadId} {t₀ : Thread} (hl : ts.lookup o = some t₀) {tb : CapabilityTable}
    (hnew : TableMatches caps { t₀ with capabilityTable := tb }) :
    ∀ t ∈ ts.update o (fun t => { t with capabilityTable := tb }), TableMatches caps t := by
  refine forall_mem_update hnd (fun t ht _ => htabs t ht) fun t ht hto => ?_
  obtain rfl : t = t₀ :=
    Option.some_inj.mp (((lookup_eq_some_iff hnd).mpr ⟨ht, hto⟩).symm.trans hl)
  exact hnew

theorem tables_addCapability (hnd : NodupKeys Thread.id ts)
    (htabs : ∀ t ∈ ts, TableMatches caps t) {o : ThreadId} {cap : Capability}
    (hcopy : CopyOf caps o cap.handle cap) :
    ∀ t ∈ (ts.addCapability o cap).2, TableMatches caps t := by
  rcases addCapability_cases ts o cap with ⟨-, he⟩ | ⟨t₀, -, -, he⟩ | ⟨t₀, hl, -, he⟩
  · rw [he]
    exact htabs
  · rw [he]
    exact htabs
  · rw [he]
    have hid : t₀.id = o := key_of_lookup hl
    refine tables_update hnd htabs hl ((htabs t₀ (mem_of_lookup hl)).insert ?_)
    rwa [hid]

theorem tables_removeCapability (hnd : NodupKeys Thread.id ts)
    (htabs : ∀ t ∈ ts, TableMatches caps t) (o : ThreadId) (h : CapHandle) :
    ∀ t ∈ (ts.removeCapability o h).2, TableMatches caps t := by
  rcases removeCapability_cases ts o h with ⟨-, he⟩ | ⟨t₀, hl, he⟩
  · rw [he]
    exact htabs
  · rw [he]
    exact tables_update hnd htabs hl ((htabs t₀ (mem_of_lookup hl)).erase h)

theorem nodupKeys_addCapability (hnd : NodupKeys Thread.id ts) (o : ThreadId) (cap : Capability) :
    NodupKeys Thread.id (ts.addCapability o cap).2 := by
  rcases addCapability_cases ts o cap with ⟨-, he⟩ | ⟨t₀, -, -, he⟩ | ⟨t₀, -, -, he⟩ <;>
    rw [he]
  · exact hnd
  · exact hnd
  · exact hnd.update (keepsKey_table _) o

theorem nodupKeys_removeCapability (hnd : NodupKeys Thread.id ts) (o : ThreadId) (h : CapHandle) :
    NodupKeys Thread.id (ts.removeCapability o h).2 := by
  rcases removeCapability_cases ts o h with ⟨-, he⟩ | ⟨t₀, -, he⟩ <;> rw [he]
  · exact hnd
  · exact hnd.update (keepsKey_table _) o

/-- Once `h` is out of the table of its global owner `o`, no table holds it. -/
theorem not_mem_removeCapability (hnd : NodupKeys Thread.id ts)
    (htabs : ∀ t ∈ ts, TableMatches caps t) {o : ThreadId} {h : CapHandle}
    (hown : ∀ g, caps.lookup h = some g → g.owner = o) :
    ∀ t ∈ (ts.removeCapability o h).2, h ∉ t.capabilityTable.capabilities := by
  -- a table that holds `h` belongs to its global owner
  have hheld : ∀ t ∈ ts, h ∈ t.capabilityTable.capabilities → t.id = o := fun t ht hh => by
    obtain ⟨c, hc⟩ := Finmap.mem_iff.mp hh
    obtain ⟨-, -, g, hg, hgo, -⟩ := htabs t ht h c hc
    exact hgo.symm.trans (hown g hg)
  rcases removeCapability_cases ts o h with ⟨hl, he⟩ | ⟨t₀, hl, he⟩
  · rw [he]
    exact fun t ht hh => lookup_eq_none_iff.mp hl t ht (hheld t ht hh)
  · rw [he]
    refine forall_mem_update hnd (fun t ht hto hh => hto (hheld t ht hh)) fun t ht hto => ?_
    exact Finmap.notMem_erase_self

/-! ### Each operation keeps the invariant -/

variable {s s' : CapSys}

theorem CapInv.addCapability (hi : CapInv s) {o : ThreadId} {cap : Capability}
    (hc : CopyOf s.globalCaps o cap.handle cap) :
    CapInv { s with threads := (s.threads.addCapability o cap).2 } :=
  ⟨hi.global, tables_addCapability hi.nodupIds hi.tables hc,
    nodupKeys_addCapability hi.nodupIds o cap⟩

theorem CapInv.removeCapability (hi : CapInv s) (o : ThreadId) (h : CapHandle) :
    CapInv { s with threads := (s.threads.removeCapability o h).2 } :=
  ⟨hi.global, tables_removeCapability hi.nodupIds hi.tables o h,
    nodupKeys_removeCapability hi.nodupIds o h⟩

theorem createRootCapability_inv (hi : CapInv s) (resource : ResourceType) (owner : ThreadId)
    (permissions : CapPermissions) :
    CapInv (s.createRootCapability resource owner permissions).2 := by
  rw [createRootCapability_of_not_mem hi.global.next_not_mem]
  refine ⟨hi.global.insert_root resource owner permissions, fun t ht => ?_, hi.nodupIds⟩
  -- the tables name handles below the counter, where the map is unchanged
  refine (hi.tables t ht).mono fun h hh => sameRights_of_lookup_eq ?_
  exact Finmap.lookup_insert_of_ne _ (hi.lt_of_mem_table ht hh).ne

theorem createOwnedRoot_inv (hi : CapInv s) (resource : ResourceType) (owner : ThreadId)
    (permissions : CapPermissions) :
    CapInv (s.createOwnedRoot resource owner permissions).2 := by
  have h₁ := createRootCapability_inv hi resource owner permissions
  unfold createOwnedRoot
  rw [createRootCapability_of_not_mem hi.global.next_not_mem] at h₁ ⊢
  -- the root is a copy of itself in its owner's table
  have hcopy : CopyOf (s.globalCaps.insert s.nextHandle
      (Capability.newRoot s.nextHandle resource owner permissions)) owner
      (Capability.newRoot s.nextHandle resource owner permissions).handle
      (Capability.newRoot s.nextHandle resource owner permissions) :=
    ⟨rfl, rfl, _, Finmap.lookup_insert _, rfl, rfl, rfl⟩
  have hc := h₁.addCapability hcopy
  dsimp only
  cases hadd : (s.threads.addCapability owner
    (Capability.newRoot s.nextHandle resource owner permissions)) with
  | mk r ts =>
      rw [hadd] at hc
      cases r <;> exact hc

theorem deriveCapability_inv (hi : CapInv s) (parentHandle : CapHandle)
    (ownerThread newOwner : ThreadId) (reducedPerms : CapPermissions) :
    CapInv (s.deriveCapability parentHandle ownerThread newOwner reducedPerms).2 := by
  rcases deriveCapability_cases s parentHandle ownerThread newOwner reducedPerms with
    ⟨e, he⟩ | ⟨parent, parent', child, hp, -, -, -, hd, he⟩
  · rw [he]
    exact hi
  rw [he]
  obtain ⟨-, -, hchild⟩ := Capability.derive_eq_ok hd
  -- the map after the derivation, before the new owner's table is touched
  have h₁ : CapInv ⟨Derived s.globalCaps parentHandle parent' child, s.nextHandle + 1,
      s.threads⟩ := by
    refine ⟨hi.global.derive hp hd, fun t ht => (hi.tables t ht).mono fun h hh => ?_, hi.nodupIds⟩
    exact sameRights_derived hp hd (hi.lt_of_mem_table ht hh)
  refine h₁.addCapability ⟨rfl, by rw [hchild], child, ?_, by rw [hchild], rfl, rfl⟩
  exact Finmap.lookup_insert _

/-- `setGlobalOwner` moves the owner of `h` and nothing else. -/
theorem lookup_setGlobalOwner (caps : CapMap) (h k : CapHandle) (o : ThreadId) :
    (setGlobalOwner caps h o).lookup k =
      (caps.lookup k).map fun g => if k = h then { g with owner := o } else g := by
  unfold setGlobalOwner
  cases hh : caps.lookup h with
  | none =>
      by_cases hk : k = h
      · rw [hk, hh]
        rfl
      · simp [hk]
  | some g =>
      rw [lookup_insert_eq_ite]
      split_ifs with hk
      · rw [hk, hh]
        rfl
      · simp

theorem transferCapability_inv (hi : CapInv s) (capHandle : CapHandle)
    (sourceThread targetThread : ThreadId) :
    CapInv (s.transferCapability capHandle sourceThread targetThread).2 := by
  unfold transferCapability
  have hrem := hi.removeCapability sourceThread capHandle
  rcases removeCapability_cases s.threads sourceThread capHandle with ⟨-, he⟩ | ⟨t₀, hl, he⟩
  · rw [he]
    exact hi
  rw [he] at hrem ⊢
  cases hget : t₀.capabilityTable.get capHandle with
  | none => exact hrem
  | some cap =>
      -- the capability taken out is a copy of the global entry, owned by the source
      have hcopy : CopyOf s.globalCaps sourceThread capHandle cap :=
        key_of_lookup hl ▸ hi.tables t₀ (mem_of_lookup hl) capHandle cap hget
      have hback : CopyOf s.globalCaps sourceThread cap.handle cap := hcopy.1.symm ▸ hcopy
      dsimp only
      split_ifs
      · exact hrem.addCapability hback
      · exact hrem.addCapability hback
      · obtain ⟨hh, -, g, hg, hgo, hgr, hgp⟩ := hcopy
        set ts₁ := (s.threads.update sourceThread fun t' => { t' with capabilityTable :=
          { t₀.capabilityTable with capabilities :=
            t₀.capabilityTable.capabilities.erase capHandle } })
        cases hadd : ts₁.addCapability targetThread { cap with owner := targetThread } with
        | mk r ts' =>
            cases r with
            | error e =>
                have hts : ts' = ts₁ := by
                  have h := @addCapability_of_error ts₁ targetThread
                    { cap with owner := targetThread } e (by rw [hadd])
                  rwa [hadd] at h
                exact hts ▸ hrem
            | ok _ =>
                -- the global owner moves to the target, whose table is the only one holding it
                have hgone := not_mem_removeCapability hi.nodupIds hi.tables
                  (o := sourceThread) (h := capHandle) fun g' hg' => by
                    rw [hg] at hg'
                    cases hg'
                    exact hgo
                rw [he] at hgone
                have hmid : CapInv ⟨setGlobalOwner s.globalCaps capHandle targetThread,
                    s.nextHandle, ts₁⟩ := by
                  refine ⟨hi.global.of_sameShape fun k c' hc' => ?_,
                    fun t ht => (hrem.tables t ht).mono fun k hk => sameRights_of_lookup_eq ?_,
                    hrem.nodupIds⟩
                  · rw [lookup_setGlobalOwner] at hc'
                    obtain ⟨c, hc, rfl⟩ := Option.map_eq_some_iff.mp hc'
                    refine ⟨c, hc, ?_⟩
                    split_ifs <;> exact ⟨rfl, rfl, rfl, rfl, rfl⟩
                  · have hkh : k ≠ capHandle := fun e => hgone t ht (e ▸ hk)
                    rw [lookup_setGlobalOwner]
                    simp [hkh]
                have hcopy' : CopyOf (setGlobalOwner s.globalCaps capHandle targetThread)
                    targetThread { cap with owner := targetThread }.handle
                    { cap with owner := targetThread } := by
                  refine ⟨rfl, rfl, { g with owner := targetThread }, ?_, rfl, hgr, hgp⟩
                  rw [lookup_setGlobalOwner, hh, hg]
                  simp
                have := hmid.addCapability hcopy'
                rw [hadd] at this
                exact this

/-- Deleting handles from both views keeps the invariant. -/
theorem CapInv.revoked (hi : CapInv s) {R : CapHandle → Prop} (hrev : Revoked s' s R) :
    CapInv s' := by
  refine ⟨hrev.nextHandle ▸ hi.global.removed hrev.globalCaps, fun t' ht' h c hc => ?_,
    hrev.threads.nodupKeys hi.nodupIds⟩
  obtain ⟨t, ht, htr⟩ := hrev.threads.mem ht'
  obtain ⟨caps, rfl, hcaps⟩ := htr
  -- the entry was in the old table, under a handle that stayed in the global map
  have hR : ¬R h := ((hcaps.mem_iff).mp (Finmap.mem_of_lookup_eq_some hc)).2
  exact (hi.tables t ht h c (hcaps.lookup_of_some hc)).mono
    (sameRights_of_lookup_eq ((hrev.globalCaps h).2 hR))

theorem revoke_inv (hi : CapInv s) (handle : CapHandle) (revoker : ThreadId) :
    CapInv (s.revoke handle revoker).2 := by
  by_cases hh : handle ∈ s.globalCaps
  · obtain ⟨-, -, -, -, hrev⟩ := revoke_of_mem hi.walkInv hh revoker
    exact hi.revoked hrev
  · rw [revoke_of_not_mem hh]
    exact hi

/-- A thread with a fresh id and an empty table, as `Thread::new` makes, joins the list. -/
theorem CapInv.add (hi : CapInv s) {t : Thread} (hfresh : s.threads.lookup t.id = none)
    (hempty : t.capabilityTable.capabilities = ∅) : CapInv { s with threads := s.threads.add t } := by
  refine ⟨hi.global, fun t' ht' => ?_, ?_⟩
  · rcases List.mem_append.mp ht' with ht' | ht'
    · exact hi.tables t' ht'
    · rw [List.mem_singleton.mp ht']
      intro h c hc
      change t.capabilityTable.capabilities.lookup h = some c at hc
      rw [hempty, Finmap.lookup_empty] at hc
      cases hc
  · unfold NodupKeys
    rw [ThreadList.add, List.map_append, List.map_singleton, List.nodup_append]
    refine ⟨hi.nodupIds, List.nodup_singleton _, fun a ha b hb hab => ?_⟩
    obtain ⟨t', ht', rfl⟩ := List.mem_map.mp ha
    rw [List.mem_singleton.mp hb] at hab
    exact lookup_eq_none_iff.mp hfresh t' ht' hab

/-! ### What the invariant reads of the threads -/

/-- The invariant reads of each thread only its id and its table. -/
theorem CapInv.of_tables (hi : CapInv s) {ts : ThreadList}
    (hts : ts.map (fun t => (t.id, t.capabilityTable)) =
      s.threads.map fun t => (t.id, t.capabilityTable)) :
    CapInv { s with threads := ts } := by
  refine ⟨hi.global, fun t ht h c hc => ?_, ?_⟩
  · -- a thread of the new list has the id and the table of a thread of the old one
    have hmem : (t.id, t.capabilityTable) ∈ s.threads.map fun t => (t.id, t.capabilityTable) :=
      hts ▸ List.mem_map_of_mem ht
    obtain ⟨t', ht', he⟩ := List.mem_map.mp hmem
    obtain ⟨hid, htab⟩ := Prod.mk.inj he
    rw [← hid]
    exact hi.tables t' ht' h c (htab ▸ hc)
  · have hid : ts.map Thread.id = s.threads.map Thread.id := by
      simpa [List.map_map, Function.comp_def] using congrArg (List.map Prod.fst) hts
    unfold NodupKeys
    rw [hid]
    exact hi.nodupIds

/-! ### The thread ids each operation keeps -/

theorem ids_addCapability (ts : ThreadList) (o : ThreadId) (cap : Capability) :
    (ts.addCapability o cap).2.map Thread.id = ts.map Thread.id := by
  rcases addCapability_cases ts o cap with ⟨-, he⟩ | ⟨t₀, -, -, he⟩ | ⟨t₀, -, -, he⟩ <;> rw [he]
  exact map_key_update (keepsKey_table _) ts o

theorem ids_removeCapability (ts : ThreadList) (o : ThreadId) (h : CapHandle) :
    (ts.removeCapability o h).2.map Thread.id = ts.map Thread.id := by
  rcases removeCapability_cases ts o h with ⟨-, he⟩ | ⟨t₀, -, he⟩ <;> rw [he]
  exact map_key_update (keepsKey_table _) ts o

theorem ids_createOwnedRoot (s : CapSys) (resource : ResourceType) (owner : ThreadId)
    (permissions : CapPermissions) :
    (s.createOwnedRoot resource owner permissions).2.threads.map Thread.id =
      s.threads.map Thread.id := by
  -- `create_root_capability` only writes the global map
  have hroot : (s.createRootCapability resource owner permissions).2.threads = s.threads := by
    unfold createRootCapability register
    dsimp only
    split_ifs <;> rfl
  unfold createOwnedRoot
  rcases hc : s.createRootCapability resource owner permissions with ⟨r, s₁⟩
  rw [hc] at hroot
  dsimp only at hroot
  cases r with
  | error e => exact congrArg _ hroot
  | ok cap =>
      dsimp only
      have hids := ids_addCapability s₁.threads owner cap
      cases hadd : s₁.threads.addCapability owner cap with
      | mk r ts =>
          rw [hadd, hroot] at hids
          cases r <;> exact hids

theorem ids_deriveCapability (s : CapSys) (parentHandle : CapHandle) (ownerThread newOwner : ThreadId)
    (reducedPerms : CapPermissions) :
    (s.deriveCapability parentHandle ownerThread newOwner reducedPerms).2.threads.map Thread.id =
      s.threads.map Thread.id := by
  rcases deriveCapability_cases s parentHandle ownerThread newOwner reducedPerms with
    ⟨e, he⟩ | ⟨parent, parent', child, -, -, -, -, -, he⟩ <;> rw [he]
  exact ids_addCapability s.threads newOwner child

theorem ids_transferCapability (s : CapSys) (capHandle : CapHandle)
    (sourceThread targetThread : ThreadId) :
    (s.transferCapability capHandle sourceThread targetThread).2.threads.map Thread.id =
      s.threads.map Thread.id := by
  unfold transferCapability
  have hrem := ids_removeCapability s.threads sourceThread capHandle
  cases hr : s.threads.removeCapability sourceThread capHandle with
  | mk removed ts =>
      rw [hr] at hrem
      dsimp only at hrem ⊢
      cases removed with
      | none => exact hrem
      | some cap =>
          dsimp only
          split_ifs
          · rw [ids_addCapability, hrem]
          · rw [ids_addCapability, hrem]
          · have hadd := ids_addCapability ts targetThread { cap with owner := targetThread }
            cases ha : ts.addCapability targetThread { cap with owner := targetThread } with
            | mk r ts' =>
                rw [ha] at hadd
                cases r <;> exact hadd.trans hrem

theorem ids_revoke (hi : CapInv s) (handle : CapHandle) (revoker : ThreadId) :
    (s.revoke handle revoker).2.threads.map Thread.id = s.threads.map Thread.id := by
  by_cases hh : handle ∈ s.globalCaps
  · obtain ⟨-, -, -, -, hrev⟩ := revoke_of_mem hi.walkInv hh revoker
    exact hrev.threads.map_id
  · rw [revoke_of_not_mem hh]

end CapSys

end Atom
