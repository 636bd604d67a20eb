import Mathlib.Data.List.Basic

/-!
# Terminal — keyboard input

`InputHandler` of `terminal/src/input.rs`: the state machine that turns set-1 scancodes into key
events and tracks the modifier keys. A byte `0xE0` only marks the next scancode as extended; of
any other byte, bit 7 tells a release from a press and the low seven bits name the key.

What the modifier flags are meant to say is read off the scancode stream itself: `keyEvents`
decodes it into presses and releases of keys, and a key is `held` when its last event is a press.

* `Tracks.run`: a flag that each scancode of key `k` sets to whether it is a press, and no other
  scancode changes, says after every stream whether `k` is held. Both shift flags are such flags
  (`tracks_shiftLeft`, `tracks_shiftRight`, from what one scancode does to them:
  `shifts_processScancode_plain`, `shifts_processScancode_extended`), so `shift()` is true iff a
  shift key is held (`shift_run`).
* `ctrl_extendedRelease`: releasing right ctrl is an extended release, and extended releases
  return before any modifier is updated, so `ctrl()` stays true with no ctrl key held; and left
  and right ctrl share one flag, so releasing one clears it while the other is still held.
-/

namespace Atom.Terminal

/-- `KeyEvent` of the terminal. -/
inductive KeyEvent where
  | char (c : Char)
  | control (c : Char)
  | alt (c : Char)
  | enter
  | backspace
  | tab
  | escape
  | delete
  | arrowUp
  | arrowDown
  | arrowLeft
  | arrowRight
  | home
  | «end»
  | pageUp
  | pageDown
  | function (n : UInt8)
  | insert
  deriving DecidableEq, Repr

/-- `scancodes::EXTENDED_PREFIX`. -/
def EXTENDED_PREFIX : UInt8 := 0xE0

/-- `InputHandler`. -/
structure InputHandler where
  shiftLeft : Bool
  shiftRight : Bool
  ctrl : Bool
  alt : Bool
  capsLock : Bool
  extended : Bool
  deriving DecidableEq, Repr

namespace InputHandler

/-- `InputHandler::new`. -/
def new : InputHandler := ⟨false, false, false, false, false, false⟩

/-- `InputHandler::shift`. -/
def shift (h : InputHandler) : Bool := h.shiftLeft || h.shiftRight

/-- `InputHandler::letter`. -/
def letter (base : Char) (shift caps : Bool) : Char :=
  if shift ^^ caps then base.toUpper else base

/-- `InputHandler::translate_scancode`: the US layout. -/
def translateScancode (h : InputHandler) (code : UInt8) : Option Char :=
  let shift := h.shift
  let caps := h.capsLock
  let pick (lower upper : Char) : Option Char := some (if shift then upper else lower)
  match code with
  | 0x02 => pick '1' '!' | 0x03 => pick '2' '@' | 0x04 => pick '3' '#' | 0x05 => pick '4' '$'
  | 0x06 => pick '5' '%' | 0x07 => pick '6' '^' | 0x08 => pick '7' '&' | 0x09 => pick '8' '*'
  | 0x0A => pick '9' '(' | 0x0B => pick '0' ')' | 0x0C => pick '-' '_' | 0x0D => pick '=' '+'
  | 0x10 => some (letter 'q' shift caps) | 0x11 => some (letter 'w' shift caps)
  | 0x12 => some (letter 'e' shift caps) | 0x13 => some (letter 'r' shift caps)
  | 0x14 => some (letter 't' shift caps) | 0x15 => some (letter 'y' shift caps)
  | 0x16 => some (letter 'u' shift caps) | 0x17 => some (letter 'i' shift caps)
  | 0x18 => some (letter 'o' shift caps) | 0x19 => some (letter 'p' shift caps)
  | 0x1A => pick '[' '{' | 0x1B => pick ']' '}'
  | 0x1E => some (letter 'a' shift caps) | 0x1F => some (letter 's' shift caps)
  | 0x20 => some (letter 'd' shift caps) | 0x21 => some (letter 'f' shift caps)
  | 0x22 => some (letter 'g' shift caps) | 0x23 => some (letter 'h' shift caps)
  | 0x24 => some (letter 'j' shift caps) | 0x25 => some (letter 'k' shift caps)
  | 0x26 => some (letter 'l' shift caps)
  | 0x27 => pick ';' ':' | 0x28 => pick '\'' '"' | 0x29 => pick '`' '~'
  | 0x2B => pick '\\' '|'
  | 0x2C => some (letter 'z' shift caps) | 0x2D => some (letter 'x' shift caps)
  | 0x2E => some (letter 'c' shift caps) | 0x2F => some (letter 'v' shift caps)
  | 0x30 => some (letter 'b' shift caps) | 0x31 => some (letter 'n' shift caps)
  | 0x32 => some (letter 'm' shift caps)
  | 0x33 => pick ',' '<' | 0x34 => pick '.' '>' | 0x35 => pick '/' '?'
  | 0x39 => some ' '
  | _ => none

/-- The navigation keys of `process_extended_scancode`. -/
def navigationKey : UInt8 → Option KeyEvent
  | 0x48 => some .arrowUp
  | 0x50 => some .arrowDown
  | 0x4B => some .arrowLeft
  | 0x4D => some .arrowRight
  | 0x47 => some .home
  | 0x4F => some .end
  | 0x49 => some .pageUp
  | 0x51 => some .pageDown
  | 0x52 => some .insert
  | 0x53 => some .delete
  | _ => none

/-- `InputHandler::process_extended_scancode`: a release does nothing; a press of right ctrl or
right alt sets the flag; a navigation key gives its event. The arms of the source's `match` are
distinct codes, taken here in turn. -/
def processExtendedScancode (h : InputHandler) (code : UInt8) (isRelease : Bool) :
    Option KeyEvent × InputHandler :=
  if isRelease then (none, h)
  else if code = 0x1D then (none, { h with ctrl := true })
  else if code = 0x38 then (none, { h with alt := true })
  else (navigationKey code, h)

/-- The special keys of `process_scancode` and the function keys. -/
def specialKey : UInt8 → Option KeyEvent
  | 0x01 => some .escape
  | 0x0E => some .backspace
  | 0x0F => some .tab
  | 0x1C => some .enter
  | 0x3B => some (.function 1) | 0x3C => some (.function 2) | 0x3D => some (.function 3)
  | 0x3E => some (.function 4) | 0x3F => some (.function 5) | 0x40 => some (.function 6)
  | 0x41 => some (.function 7) | 0x42 => some (.function 8) | 0x43 => some (.function 9)
  | 0x44 => some (.function 10) | 0x57 => some (.function 11) | 0x58 => some (.function 12)
  | _ => none

/-- The event of a character key: `Ctrl` turns a letter into its control character. -/
def charEvent (h : InputHandler) (ch : Char) : KeyEvent :=
  if h.ctrl then
    .control (if ch.isAlpha then Char.ofNat (ch.toLower.toNat - 'a'.toNat + 1) else ch)
  else if h.alt then .alt ch
  else .char ch

/-- The end of `process_scancode`, past the modifier keys: nothing on a release; on a press, a
special key, or the key's character. The state is not changed there. -/
def pressEvent (h : InputHandler) (code : UInt8) (isRelease : Bool) : Option KeyEvent :=
  if isRelease then none
  else
    match specialKey code with
    | some e => some e
    | none => (h.translateScancode code).map h.charEvent

/-- `InputHandler::process_scancode`. -/
def processScancode (h : InputHandler) (scancode : UInt8) : Option KeyEvent × InputHandler :=
  if scancode = EXTENDED_PREFIX then (none, { h with extended := true })
  else
    let isExtended := h.extended
    let h := { h with extended := false }
    let isRelease := scancode &&& 0x80 ≠ 0
    let code := scancode &&& 0x7F
    if isExtended then h.processExtendedScancode code isRelease
    -- the modifier keys, the arms of the source's `match code`
    else if code = 0x2A then (none, { h with shiftLeft := !isRelease })
    else if code = 0x36 then (none, { h with shiftRight := !isRelease })
    else if code = 0x1D then (none, { h with ctrl := !isRelease })
    else if code = 0x38 then (none, { h with alt := !isRelease })
    else if code = 0x3A then (none, if !isRelease then { h with capsLock := !h.capsLock } else h)
    else (h.pressEvent code isRelease, h)

/-- The handler after a stream of scancodes. -/
def run (h : InputHandler) (codes : List UInt8) : InputHandler :=
  codes.foldl (fun h b => (h.processScancode b).2) h

end InputHandler

/-! ### Which keys are held -/

/-- A key of a set-1 keyboard: the low seven bits of its code, and whether `0xE0` comes first. -/
structure Key where
  extended : Bool
  code : UInt8
  deriving DecidableEq, Repr

def LEFT_SHIFT : Key := ⟨false, 0x2A⟩
def RIGHT_SHIFT : Key := ⟨false, 0x36⟩
def LEFT_CTRL : Key := ⟨false, 0x1D⟩
def RIGHT_CTRL : Key := ⟨true, 0x1D⟩
def LEFT_ALT : Key := ⟨false, 0x38⟩
def RIGHT_ALT : Key := ⟨true, 0x38⟩

/-- The presses (`true`) and releases (`false`) a scancode stream stands for, `ext` telling
whether an `0xE0` is pending. -/
def keyEvents : Bool → List UInt8 → List (Key × Bool)
  | _, [] => []
  | ext, b :: rest =>
      if b = EXTENDED_PREFIX then keyEvents true rest
      else (⟨ext, b &&& 0x7F⟩, b &&& 0x80 = 0) :: keyEvents false rest

/-- Whether `k` is held after the events: its last event is a press; with no event, `init`. -/
def heldAfter (k : Key) (init : Bool) (events : List (Key × Bool)) : Bool :=
  events.foldl (fun held e => if e.1 = k then e.2 else held) init

/-- Whether `k` is held after a stream of scancodes read from the start. -/
def held (k : Key) (codes : List UInt8) : Bool := heldAfter k false (keyEvents false codes)

/-! ### The shift keys are tracked -/

namespace InputHandler

theorem extended_processScancode (h : InputHandler) (b : UInt8) :
    (h.processScancode b).2.extended = decide (b = EXTENDED_PREFIX) := by
  unfold processScancode processExtendedScancode
  by_cases hb : b = EXTENDED_PREFIX
  · simp [hb]
  · simp only [hb, if_false, decide_false]
    split_ifs <;> rfl

/-- A flag of the handler tracks key `k`: each scancode that is an event of `k` sets it to
whether that event is a press, and any other scancode leaves it. -/
def Tracks (f : InputHandler → Bool) (k : Key) : Prop :=
  ∀ (h : InputHandler) (b : UInt8), f (h.processScancode b).2 =
    if b ≠ EXTENDED_PREFIX ∧ (⟨h.extended, b &&& 0x7F⟩ : Key) = k then decide (b &&& 0x80 = 0)
    else f h

/-- A flag that tracks `k` is, after any stream, whether `k` is held. -/
theorem Tracks.run {f : InputHandler → Bool} {k : Key} (ht : Tracks f k) :
    ∀ (codes : List UInt8) (h : InputHandler),
      f (h.run codes) = heldAfter k (f h) (keyEvents h.extended codes)
  | [], _ => rfl
  | b :: rest, h => by
      rw [InputHandler.run, List.foldl_cons, ← InputHandler.run, ht.run rest,
        extended_processScancode, ht h b]
      by_cases hb : b = EXTENDED_PREFIX
      · simp [hb, keyEvents]
      · simp only [hb, decide_false, keyEvents, if_false, heldAfter, List.foldl_cons, ne_eq,
          not_false_eq_true, true_and]

/-- Outside an extended sequence only the arm of `0x2A` moves the left shift flag, and only the
arm of `0x36` the right one, each to whether the scancode is a press. -/
theorem shifts_processScancode_plain {h : InputHandler} {b : UInt8} (hb : b ≠ EXTENDED_PREFIX)
    (hext : h.extended = false) :
    (h.processScancode b).2.shiftLeft =
        (if b &&& 0x7F = 0x2A then decide (b &&& 0x80 = 0) else h.shiftLeft) ∧
      (h.processScancode b).2.shiftRight =
        (if b &&& 0x7F = 0x36 then decide (b &&& 0x80 = 0) else h.shiftRight) := by
  simp only [processScancode, hb, hext, if_false, Bool.false_eq_true]
  split_ifs <;> simp_all

/-- An extended sequence never moves the shift flags. -/
theorem shifts_processScancode_extended {h : InputHandler} {b : UInt8} (hb : b ≠ EXTENDED_PREFIX)
    (hext : h.extended = true) :
    (h.processScancode b).2.shiftLeft = h.shiftLeft ∧
      (h.processScancode b).2.shiftRight = h.shiftRight := by
  simp only [processScancode, hb, hext, if_false, if_true]
  unfold processExtendedScancode
  split_ifs <;> exact ⟨rfl, rfl⟩

theorem tracks_shiftLeft : Tracks shiftLeft LEFT_SHIFT := by
  intro h b
  by_cases hb : b = EXTENDED_PREFIX
  · simp [processScancode, hb]
  cases hext : h.extended
  · rw [(shifts_processScancode_plain hb hext).1]
    simp [hb, LEFT_SHIFT]
  · rw [(shifts_processScancode_extended hb hext).1]
    simp [hb, LEFT_SHIFT]

theorem tracks_shiftRight : Tracks shiftRight RIGHT_SHIFT := by
  intro h b
  by_cases hb : b = EXTENDED_PREFIX
  · simp [processScancode, hb]
  cases hext : h.extended
  · rw [(shifts_processScancode_plain hb hext).2]
    simp [hb, RIGHT_SHIFT]
  · rw [(shifts_processScancode_extended hb hext).2]
    simp [hb, RIGHT_SHIFT]

/-- **`shift()` is true iff a shift key is held**, after every stream of scancodes. -/
theorem shift_run (codes : List UInt8) :
    (new.run codes).shift = (held LEFT_SHIFT codes || held RIGHT_SHIFT codes) := by
  rw [shift, tracks_shiftLeft.run, tracks_shiftRight.run]
  rfl

end InputHandler

/-- **`ctrl()` does not track the ctrl keys.** Right ctrl pressed and released leaves `ctrl()`
true with no ctrl key held; left ctrl released while right ctrl is held leaves it false. -/
theorem ctrl_extendedRelease :
    (InputHandler.new.run [0xE0, 0x1D, 0xE0, 0x9D]).ctrl = true ∧
      held LEFT_CTRL [0xE0, 0x1D, 0xE0, 0x9D] = false ∧
      held RIGHT_CTRL [0xE0, 0x1D, 0xE0, 0x9D] = false ∧
    (InputHandler.new.run [0x1D, 0xE0, 0x1D, 0x9D]).ctrl = false ∧
      held RIGHT_CTRL [0x1D, 0xE0, 0x1D, 0x9D] = true := by
  decide

end Atom.Terminal
