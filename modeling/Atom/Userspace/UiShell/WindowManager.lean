import Mathlib.Data.Nat.Digits.Defs

/-!
# UI shell — the window manager's focus

The window manager of `ui_shell/src/main.rs` keeps its windows in a vector whose order is the
z-order, the top window last, and stores the focus twice: in `focused_id` and in the `focused`
flag of each window, which `draw_window` reads to colour the header. `focus_window` clears the
flag of the window `focused_id` names before it looks for the new one, and `close_window` hands
`focused_id` to the new top window without setting its flag.

What every run keeps (`Inv`): the ids are distinct and below `next_id` while `next_id` has not
wrapped, `focused_id`, when set, names the top window, and a window whose flag is set is the
one `focused_id` names. The converse does not hold: `focused_id` can name a window whose flag
is clear.

* `focusWindow_cases`, `closeWindow_windows`: what the two calls do to the windows.
* `Inv.focusWindow`, `Inv.closeWindow`, `Inv.createWindow`: one step.
* `focusInv_run`: every run of `create_window`, `focus_window` and `close_window` from `new`
  that creates fewer than `2 ^ 32 - 1` windows keeps `Inv`.
* `focusedId_withoutFlag`: closing the top window, by `close_window` or by a click on its close
  button, and focusing an id no window has, each leave `focused_id` naming a window whose flag
  is clear.

The windows' titles and event ports, and the rest of the compositor (cursor, panel, dock), are
left out: no modelled function reads them.
-/

namespace Atom.UiShell

/-- `WindowId` of `libipc`. -/
abbrev WindowId := UInt32

/-- `Window`, less its title and event port. -/
structure Window where
  id : WindowId
  x : Int32
  y : Int32
  width : UInt32
  height : UInt32
  visible : Bool
  focused : Bool
  deriving DecidableEq, Repr

namespace Window

/-- `Window::new`: visible and not focused. -/
def new (id : WindowId) (x y : Int32) (width height : UInt32) : Window :=
  ⟨id, x, y, width, height, true, false⟩

/-- `Window::contains`, its sums in `i32`. -/
def contains (w : Window) (px py : Int32) : Bool :=
  decide (px ≥ w.x) && decide (py ≥ w.y) && decide (px < w.x + w.width.toInt32) &&
    decide (py < w.y + w.height.toInt32)

end Window

/-- `WindowManager`. -/
structure WindowManager where
  windows : List Window
  nextId : WindowId
  focusedId : Option WindowId
  deriving DecidableEq, Repr

namespace WindowManager

/-- `WindowManager::new`. -/
def new : WindowManager := ⟨[], 1, none⟩

/-- `iter_mut().find(|w| w.id == id)` and `w.focused = false`: the first window with the id is
unfocused. -/
def unfocusFirst (id : WindowId) : List Window → List Window
  | [] => []
  | w :: ws => if w.id = id then { w with focused := false } :: ws else w :: unfocusFirst id ws

/-- `iter().position(|w| w.id == id)` and `remove(pos)`: the first window with the id, and the
others in their order. -/
def removeFirst (id : WindowId) : List Window → Option (Window × List Window)
  | [] => none
  | w :: ws =>
      if w.id = id then some (w, ws)
      else (removeFirst id ws).map fun (v, rest) => (v, w :: rest)

/-- The first half of `focus_window`: the window `focused_id` names, if any, is unfocused. -/
def unfocusPrevious (wm : WindowManager) : List Window :=
  match wm.focusedId with
  | some prevId => unfocusFirst prevId wm.windows
  | none => wm.windows

/-- `focus_window`: the window with the id, if there is one, is flagged, moved to the top and
named by `focused_id`; otherwise only the previous window's flag has changed. -/
def focusWindow (wm : WindowManager) (id : WindowId) : WindowManager :=
  let windows := wm.unfocusPrevious
  match removeFirst id windows with
  | some (window, rest) =>
      { wm with windows := rest ++ [{ window with focused := true }], focusedId := some id }
  | none => { wm with windows }

/-- `create_window`: the id is drawn from `next_id`, which is incremented in `u32`. -/
def createWindow (wm : WindowManager) (x y : Int32) (width height : UInt32) :
    WindowId × WindowManager :=
  let id := wm.nextId
  let wm := { wm with nextId := wm.nextId + 1,
                      windows := wm.windows ++ [Window.new id x y width height] }
  (id, wm.focusWindow id)

/-- `window_at`: the topmost visible window containing the point. -/
def windowAt (wm : WindowManager) (x y : Int32) : Option WindowId :=
  (wm.windows.reverse.find? fun w => w.visible && w.contains x y).map Window.id

/-- `close_window`: `focused_id` passes to the new top window when the focused one closes. -/
def closeWindow (wm : WindowManager) (id : WindowId) : WindowManager :=
  let windows := wm.windows.filter fun w => w.id != id
  if wm.focusedId = some id then { wm with windows, focusedId := windows.getLast?.map Window.id }
  else { wm with windows }

/-- The calls that change the window list: `create_window`, `focus_window` and `close_window`. -/
inductive Call where
  | createWindow (x y : Int32) (width height : UInt32)
  | focusWindow (id : WindowId)
  | closeWindow (id : WindowId)
  deriving DecidableEq, Repr

/-- Whether a call creates a window. -/
def Call.isCreate : Call → Bool
  | .createWindow .. => true
  | _ => false

/-- The manager after a call. -/
def apply (wm : WindowManager) : Call → WindowManager
  | .createWindow x y width height => (wm.createWindow x y width height).2
  | .focusWindow id => wm.focusWindow id
  | .closeWindow id => wm.closeWindow id

end WindowManager

/-- What `Compositor::handle_click` reads and writes: the window manager and the redraw flag. -/
structure Compositor where
  wm : WindowManager
  dirty : Bool
  deriving DecidableEq, Repr

/-- `Compositor::handle_click`: the window under the point is focused, and closed when the point
is on its close button, twelve pixels square, `20` from its right edge and `6` below its top. -/
def Compositor.handleClick (c : Compositor) (x y : Int32) : Compositor :=
  match c.wm.windowAt x y with
  | none => c
  | some id =>
      let c := if c.wm.focusedId ≠ some id then { wm := c.wm.focusWindow id, dirty := true } else c
      match c.wm.windows.find? fun w => w.id == id with
      | none => c
      | some w =>
          let closeX := w.x + w.width.toInt32 - 20
          let closeY := w.y + 6
          if x ≥ closeX ∧ x < closeX + 12 ∧ y ≥ closeY ∧ y < closeY + 12 then
            { wm := c.wm.closeWindow id, dirty := true }
          else c

/-! ### What the calls do to the windows -/

/-- The last element survives a filter that keeps it. -/
theorem getLast?_filter_of_getLast? {α : Type} {p : α → Bool} {l : List α} {a : α}
    (hl : l.getLast? = some a) (ha : p a = true) : (l.filter p).getLast? = some a := by
  obtain ⟨ys, rfl⟩ := List.getLast?_eq_some_iff.mp hl
  rw [List.filter_append, List.filter_cons, if_pos ha, List.filter_nil]
  exact List.getLast?_concat

namespace WindowManager

variable {wm : WindowManager}

@[simp] theorem map_id_unfocusFirst (id : WindowId) (ws : List Window) :
    (unfocusFirst id ws).map Window.id = ws.map Window.id := by
  induction ws with
  | nil => rfl
  | cons w ws ih =>
      unfold unfocusFirst
      split_ifs <;> simp [ih]

/-- With distinct ids, a window `unfocusFirst` leaves flagged was there and has another id. -/
theorem focused_of_mem_unfocusFirst {id : WindowId} {ws : List Window}
    (hnd : (ws.map Window.id).Nodup) {v : Window} (hv : v ∈ unfocusFirst id ws)
    (hf : v.focused = true) : v ∈ ws ∧ v.id ≠ id := by
  induction ws with
  | nil => cases hv
  | cons w ws ih =>
      rw [List.map_cons, List.nodup_cons] at hnd
      unfold unfocusFirst at hv
      split_ifs at hv with hw
      · -- the first window with the id is unfocused, and no other has the id
        rcases List.mem_cons.mp hv with rfl | hv
        · simp at hf
        · refine ⟨List.mem_cons_of_mem w hv, fun he => hnd.1 ?_⟩
          rw [hw, ← he]
          exact List.mem_map_of_mem hv
      · rcases List.mem_cons.mp hv with rfl | hv
        · exact ⟨List.mem_cons_self, hw⟩
        · obtain ⟨hm, hne⟩ := ih hnd.2 hv
          exact ⟨List.mem_cons_of_mem w hm, hne⟩

theorem removeFirst_eq_some {id : WindowId} {ws rest : List Window} {v : Window}
    (h : removeFirst id ws = some (v, rest)) :
    ∃ pre post, ws = pre ++ v :: post ∧ rest = pre ++ post ∧ v.id = id := by
  induction ws generalizing rest with
  | nil => cases h
  | cons w ws ih =>
      unfold removeFirst at h
      split_ifs at h with hw
      · obtain ⟨rfl, rfl⟩ := Prod.mk.inj (Option.some.inj h)
        exact ⟨[], ws, rfl, rfl, hw⟩
      · obtain ⟨⟨v', rest'⟩, hr, he⟩ := Option.map_eq_some_iff.mp h
        obtain ⟨rfl, rfl⟩ := Prod.mk.inj he
        obtain ⟨pre, post, rfl, rfl, hid⟩ := ih hr
        exact ⟨w :: pre, post, rfl, rfl, hid⟩

theorem removeFirst_eq_none {id : WindowId} {ws : List Window} (h : removeFirst id ws = none) :
    ∀ w ∈ ws, w.id ≠ id := by
  induction ws with
  | nil => intro w hw; cases hw
  | cons w ws ih =>
      unfold removeFirst at h
      -- the first window does not have the id, since the search went on
      split_ifs at h with hw
      intro v hv
      rcases List.mem_cons.mp hv with rfl | hv
      · exact hw
      · exact ih (Option.map_eq_none_iff.mp h) v hv

theorem map_id_unfocusPrevious (wm : WindowManager) :
    wm.unfocusPrevious.map Window.id = wm.windows.map Window.id := by
  unfold unfocusPrevious
  split <;> simp

/-- **`focus_window`, in two cases**: the window with the id is found among the windows after
the previous one was unfocused, and moved to the top, flagged; or there is none, and only the
unfocusing happened. -/
theorem focusWindow_cases (wm : WindowManager) (id : WindowId) :
    (∃ v pre post, wm.unfocusPrevious = pre ++ v :: post ∧ v.id = id ∧
      wm.focusWindow id = { wm with windows := pre ++ post ++ [{ v with focused := true }],
                                    focusedId := some id }) ∨
    ((∀ w ∈ wm.unfocusPrevious, w.id ≠ id) ∧
      wm.focusWindow id = { wm with windows := wm.unfocusPrevious }) := by
  unfold focusWindow
  dsimp only
  cases h : removeFirst id wm.unfocusPrevious with
  | none => exact .inr ⟨removeFirst_eq_none h, rfl⟩
  | some r =>
      obtain ⟨v, rest⟩ := r
      obtain ⟨pre, post, hws, rfl, hid⟩ := removeFirst_eq_some h
      exact .inl ⟨v, pre, post, hws, hid, rfl⟩

theorem focusWindow_nextId (wm : WindowManager) (id : WindowId) :
    (wm.focusWindow id).nextId = wm.nextId := by
  rcases focusWindow_cases wm id with ⟨v, pre, post, -, -, heq⟩ | ⟨-, heq⟩
  · rw [heq]
  · rw [heq]

theorem closeWindow_windows (wm : WindowManager) (id : WindowId) :
    (wm.closeWindow id).windows = wm.windows.filter fun w => w.id != id := by
  unfold closeWindow
  split_ifs <;> rfl

theorem closeWindow_nextId (wm : WindowManager) (id : WindowId) :
    (wm.closeWindow id).nextId = wm.nextId := by
  unfold closeWindow
  split_ifs <;> rfl

theorem closeWindow_focusedId (wm : WindowManager) (id : WindowId) :
    (wm.closeWindow id).focusedId =
      if wm.focusedId = some id then (wm.closeWindow id).windows.getLast?.map Window.id
      else wm.focusedId := by
  unfold closeWindow
  split_ifs <;> rfl

end WindowManager

/-! ### The invariant -/

namespace WindowManager

variable {wm : WindowManager}

/-- What every run keeps: the ids are distinct and below `next_id`; `focused_id`, when set,
names the top window; a flagged window is the one `focused_id` names. -/
structure Inv (wm : WindowManager) : Prop where
  nodup : (wm.windows.map Window.id).Nodup
  lt_nextId : ∀ w ∈ wm.windows, w.id.toNat < wm.nextId.toNat
  top : ∀ i, wm.focusedId = some i → wm.windows.getLast?.map Window.id = some i
  flagged : ∀ w ∈ wm.windows, w.focused = true → wm.focusedId = some w.id

theorem inv_new : new.Inv :=
  ⟨List.nodup_nil, fun _ h => (by cases h), fun _ h => (by cases h), fun _ h => (by cases h)⟩

/-- `next_id + 1` does not wrap below `u32::MAX`. -/
theorem toNat_nextId_add_one (hnext : wm.nextId.toNat + 1 < 2 ^ 32) :
    (wm.nextId + 1).toNat = wm.nextId.toNat + 1 := by
  rw [UInt32.toNat_add, Nat.mod_eq_of_lt (by simpa using hnext)]
  rfl

/-- After the first half of `focus_window` no window is flagged: the only one that could be is
the one `focused_id` names, and it was unfocused. -/
theorem unfocusPrevious_unflagged (hnd : (wm.windows.map Window.id).Nodup)
    (hfl : ∀ w ∈ wm.windows, w.focused = true → wm.focusedId = some w.id) :
    ∀ w ∈ wm.unfocusPrevious, w.focused = false := by
  intro w hw
  by_contra hf
  rw [Bool.not_eq_false] at hf
  unfold unfocusPrevious at hw
  split at hw
  · rename_i prevId hprev
    obtain ⟨hm, hne⟩ := focused_of_mem_unfocusFirst hnd hw hf
    exact hne (Option.some.inj ((hprev.symm.trans (hfl w hm hf))).symm)
  · rename_i hnone
    rw [hnone] at hfl
    cases hfl w hw hf

/-- An id of some window is below `next_id`. -/
theorem lt_nextId_of_mem_ids (hlt : ∀ w ∈ wm.windows, w.id.toNat < wm.nextId.toNat)
    {i : WindowId} (hi : i ∈ wm.windows.map Window.id) : i.toNat < wm.nextId.toNat := by
  obtain ⟨u, hu, rfl⟩ := List.mem_map.mp hi
  exact hlt u hu

/-- An id among the windows after the unfocusing was an id before it. -/
theorem mem_ids_of_mem_unfocusPrevious {w : Window} (hw : w ∈ wm.unfocusPrevious) :
    w.id ∈ wm.windows.map Window.id := by
  rw [← map_id_unfocusPrevious]
  exact List.mem_map_of_mem hw

/-- The window found by `focus_window` moved to the top: the invariant holds afterwards,
whatever held of `focused_id` before. -/
theorem inv_of_found (hnd : (wm.windows.map Window.id).Nodup)
    (hlt : ∀ w ∈ wm.windows, w.id.toNat < wm.nextId.toNat)
    (hfl : ∀ w ∈ wm.windows, w.focused = true → wm.focusedId = some w.id)
    {v : Window} {pre post : List Window} {id : WindowId}
    (hws : wm.unfocusPrevious = pre ++ v :: post) (hid : v.id = id) :
    Inv { wm with windows := pre ++ post ++ [{ v with focused := true }], focusedId := some id } := by
  have hclear := unfocusPrevious_unflagged hnd hfl
  -- the ids are those of before, the found one moved to the end
  have hperm : ((pre ++ post ++ [{ v with focused := true }]).map Window.id).Perm
      (wm.windows.map Window.id) := by
    rw [← map_id_unfocusPrevious, hws]
    simp only [List.map_append, List.map_cons, List.map_nil]
    refine List.perm_append_comm.trans ?_
    rw [List.singleton_append]
    exact List.perm_middle.symm
  have hsub : ∀ w ∈ pre ++ post, w ∈ wm.unfocusPrevious := by
    intro w hw
    rw [hws, List.mem_append, List.mem_cons]
    rcases List.mem_append.mp hw with hw | hw
    · exact .inl hw
    · exact .inr (.inr hw)
  refine ⟨hperm.nodup_iff.mpr hnd, fun w hw => ?_, fun i hi => ?_, fun w hw hf => ?_⟩
  · exact lt_nextId_of_mem_ids hlt (hperm.subset (List.mem_map_of_mem hw))
  · rw [Option.some.inj hi.symm, ← hid]
    simp
  · rcases List.mem_append.mp hw with hw | hw
    · rw [hclear w (hsub w hw)] at hf
      cases hf
    · rw [List.mem_singleton.mp hw, ← hid]

/-- Focusing a window that exists restores the invariant from distinct ids and flags alone. -/
theorem inv_focusWindow_of_mem (hnd : (wm.windows.map Window.id).Nodup)
    (hlt : ∀ w ∈ wm.windows, w.id.toNat < wm.nextId.toNat)
    (hfl : ∀ w ∈ wm.windows, w.focused = true → wm.focusedId = some w.id)
    {id : WindowId} (hmem : ∃ w ∈ wm.windows, w.id = id) : (wm.focusWindow id).Inv := by
  rcases focusWindow_cases wm id with ⟨v, pre, post, hws, hid, heq⟩ | ⟨habs, -⟩
  · rw [heq]
    exact inv_of_found hnd hlt hfl hws hid
  · -- the window with the id is still there after the unfocusing
    obtain ⟨w, hw, rfl⟩ := hmem
    have hid : w.id ∈ wm.unfocusPrevious.map Window.id := by
      rw [map_id_unfocusPrevious]
      exact List.mem_map_of_mem hw
    obtain ⟨u, hu, he⟩ := List.mem_map.mp hid
    exact absurd he (habs u hu)

/-- **`focus_window` keeps the invariant**, for every id. With an id no window has, the previous
window keeps the focus in `focused_id` and loses its flag. -/
theorem Inv.focusWindow (hi : wm.Inv) (id : WindowId) : (wm.focusWindow id).Inv := by
  rcases focusWindow_cases wm id with ⟨v, pre, post, hws, hid, heq⟩ | ⟨-, heq⟩
  · rw [heq]
    exact inv_of_found hi.nodup hi.lt_nextId hi.flagged hws hid
  · rw [heq]
    have hclear := unfocusPrevious_unflagged hi.nodup hi.flagged
    refine ⟨by rw [map_id_unfocusPrevious]; exact hi.nodup, fun w hw => ?_, fun i hi' => ?_,
      fun w hw hf => ?_⟩
    · exact lt_nextId_of_mem_ids hi.lt_nextId (mem_ids_of_mem_unfocusPrevious hw)
    · -- the unfocusing changed no id, so the top window is the same
      rw [← List.getLast?_map, map_id_unfocusPrevious, List.getLast?_map]
      exact hi.top i hi'
    · rw [hclear w hw] at hf
      cases hf

/-- **`close_window` keeps the invariant**, for every id: the windows left are a sublist, and
`focused_id` moves to the new top window exactly when its window was closed. -/
theorem Inv.closeWindow (hi : wm.Inv) (id : WindowId) : (wm.closeWindow id).Inv := by
  have hwin := closeWindow_windows wm id
  have hsub : (wm.closeWindow id).windows.Sublist wm.windows := by
    rw [hwin]
    exact List.filter_sublist
  have hfoc := closeWindow_focusedId wm id
  refine ⟨hi.nodup.sublist (hsub.map _), fun w hw => ?_, fun i hi' => ?_, fun w hw hf => ?_⟩
  · rw [closeWindow_nextId]
    exact hi.lt_nextId w (hsub.subset hw)
  · by_cases hf : wm.focusedId = some id
    · rw [hfoc, if_pos hf] at hi'
      exact hi'
    · -- the focused window is not the closed one: it stays on top
      rw [hfoc, if_neg hf] at hi'
      obtain ⟨u, hu, rfl⟩ := Option.map_eq_some_iff.mp (hi.top i hi')
      have hne : u.id ≠ id := fun he => hf (he ▸ hi')
      rw [hwin, getLast?_filter_of_getLast? hu (by simpa using hne)]
      rfl
  · have hw' : w ∈ wm.windows.filter fun w => w.id != id := hwin ▸ hw
    obtain ⟨hm, hne⟩ := List.mem_filter.mp hw'
    have hfw := hi.flagged w hm hf
    have hnf : wm.focusedId ≠ some id := by
      rw [hfw]
      simpa using hne
    rw [hfoc, if_neg hnf, hfw]

/-- **`create_window` keeps the invariant** while `next_id` does not wrap: the new id is above
every id there is. -/
theorem Inv.createWindow (hi : wm.Inv) (hnext : wm.nextId.toNat + 1 < 2 ^ 32) (x y : Int32)
    (width height : UInt32) : (wm.createWindow x y width height).2.Inv := by
  apply inv_focusWindow_of_mem
  · -- the new id is none of the old ones
    show ((wm.windows ++ [Window.new wm.nextId x y width height]).map Window.id).Nodup
    rw [List.map_append, List.map_singleton]
    refine List.nodup_append.mpr ⟨hi.nodup, List.nodup_cons.mpr ⟨List.not_mem_nil, List.nodup_nil⟩, fun a ha b hb he => ?_⟩
    obtain ⟨u, hu, rfl⟩ := List.mem_map.mp ha
    rw [List.mem_singleton.mp hb] at he
    exact absurd (he ▸ hi.lt_nextId u hu) (Nat.lt_irrefl _)
  · intro w hw
    show w.id.toNat < (wm.nextId + 1).toNat
    rw [toNat_nextId_add_one hnext]
    rcases List.mem_append.mp hw with hw | hw
    · exact Nat.lt_succ_of_lt (hi.lt_nextId w hw)
    · rw [List.mem_singleton.mp hw]
      exact Nat.lt_succ_self _
  · intro w hw hf
    rcases List.mem_append.mp hw with hw | hw
    · exact hi.flagged w hw hf
    · rw [List.mem_singleton.mp hw] at hf
      cases hf
  · exact ⟨Window.new wm.nextId x y width height, List.mem_append_right _ List.mem_cons_self, rfl⟩

theorem Inv.apply (hi : wm.Inv) (c : Call) (hc : c.isCreate = true → wm.nextId.toNat + 1 < 2 ^ 32) :
    (wm.apply c).Inv := by
  cases c with
  | createWindow x y width height => exact hi.createWindow (hc rfl) x y width height
  | focusWindow id => exact hi.focusWindow id
  | closeWindow id => exact hi.closeWindow id

theorem nextId_apply (hnext : wm.nextId.toNat + 1 < 2 ^ 32) (c : Call) :
    (wm.apply c).nextId.toNat = wm.nextId.toNat + if c.isCreate then 1 else 0 := by
  cases c with
  | createWindow x y width height =>
      have h : (wm.apply (.createWindow x y width height)).nextId = wm.nextId + 1 :=
        focusWindow_nextId _ _
      rw [h, toNat_nextId_add_one hnext]
      rfl
  | focusWindow id => simp [apply, focusWindow_nextId, Call.isCreate]
  | closeWindow id => simp [apply, closeWindow_nextId, Call.isCreate]

end WindowManager

/-! ### Runs -/

namespace WindowManager

/-- **The invariant holds after every run** of `create_window`, `focus_window` and
`close_window` from `new`, with any ids, that creates fewer than `2 ^ 32 - 1` windows: until
then `next_id` has not wrapped. -/
theorem focusInv_run (calls : List Call) (h : calls.countP Call.isCreate < 2 ^ 32 - 1) :
    (calls.foldl apply new).Inv := by
  -- induction on the calls from any state whose `next_id` leaves room for the creations left
  suffices ∀ (wm : WindowManager), wm.Inv →
      wm.nextId.toNat + calls.countP Call.isCreate < 2 ^ 32 → (calls.foldl apply wm).Inv from
    this new inv_new (by rw [show new.nextId.toNat = 1 from rfl]; omega)
  clear h
  induction calls with
  | nil => exact fun _ hi _ => hi
  | cons c calls ih =>
      intro wm hi hroom
      rw [List.countP_cons] at hroom
      have hnext : c.isCreate = true → wm.nextId.toNat + 1 < 2 ^ 32 := by
        intro hc
        rw [if_pos hc] at hroom
        omega
      apply ih (wm.apply c) (hi.apply c hnext)
      by_cases hc : c.isCreate = true
      · rw [nextId_apply (hnext hc), if_pos hc]
        rw [if_pos hc] at hroom
        omega
      · rw [if_neg hc] at hroom
        cases c with
        | createWindow x y width height => exact absurd rfl hc
        | focusWindow id => simpa [apply, focusWindow_nextId] using hroom
        | closeWindow id => simpa [apply, closeWindow_nextId] using hroom

/-- Two windows, a focus on the first and the close of the second. -/
theorem focusInv_run_twoWindows :
    [Call.createWindow 0 0 10 10, .createWindow 5 5 10 10, .focusWindow 1, .closeWindow 2].countP
        Call.isCreate < 2 ^ 32 - 1 ∧
      ([Call.createWindow 0 0 10 10, .createWindow 5 5 10 10, .focusWindow 1,
        .closeWindow 2].foldl apply new).Inv :=
  ⟨by decide, focusInv_run _ (by decide)⟩

end WindowManager

/-! ### Where the flags and `focused_id` disagree -/

/-- The desktop at start: "Welcome to Atom" at `(100, 100)`, then "Terminal" at `(150, 150)` on
top of it, focused. -/
def desktop : WindowManager :=
  ((WindowManager.new.createWindow 100 100 400 300).2.createWindow 150 150 500 350).2

/-- **`focused_id` names a window that is not flagged**: closing the focused top window, by
`close_window` or by a click on its close button at `(635, 160)`, hands `focused_id` to the
window below without flagging it; focusing the id `7`, which no window has, after the first
window is created unflags that window and keeps it in `focused_id`. In both states no window is
flagged while `focused_id` is set. -/
theorem focusedId_withoutFlag :
    (desktop.closeWindow 2).focusedId = some 1 ∧
      (desktop.closeWindow 2).windows.map Window.focused = [false] ∧
      (Compositor.handleClick ⟨desktop, false⟩ 635 160).wm = desktop.closeWindow 2 ∧
    ((WindowManager.new.createWindow 100 100 400 300).2.focusWindow 7).focusedId = some 1 ∧
      ((WindowManager.new.createWindow 100 100 400 300).2.focusWindow 7).windows.map
        Window.focused = [false] := by
  decide

end Atom.UiShell
