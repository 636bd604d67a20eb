import Atom.Kernel.Input.Buffer

/-!
# Input — key and mouse events

The structured events of `kernel/src/input.rs`.  `poll_key_event` pops one scancode, or a
`0xF0` release prefix and the byte after it; a prefix with nothing after it is popped and
nothing is returned.  `poll_mouse_event` drains up to sixteen bytes of the mouse buffer into a
local array and feeds them to the packet assembler (`MousePacketState::add_byte`) until one
completes a packet; it returns that packet's event, and the bytes drained after it are never
fed.  The input subsystem is a machine over the two buffers and the packet assembler, moved by
the interrupts and the polls (`Input.call`).

* `pollKeyEvent_spec`, `pollMouseEvent_spec`: each poll against the bytes the buffer holds.
-/

namespace Atom

open Lib

/-- `KeyEvent`. -/
structure KeyEvent where
  scancode : UInt8
  pressed : Bool
  deriving DecidableEq, Repr

/-- `MouseEvent`; the deltas are `i16` in the source and stay within `-256 ..= 255`. -/
structure MouseEvent where
  deltaX : Int
  deltaY : Int
  leftButton : Bool
  rightButton : Bool
  middleButton : Bool
  deriving DecidableEq, Repr

/-- `MousePacketState`: the bytes of the packet being assembled and how many there are. -/
structure MousePacketState where
  bytes : Nat → UInt8
  index : Nat
  index_lt : index < 3

namespace MousePacketState

/-- `MousePacketState::new`. -/
def new : MousePacketState := ⟨fun _ => 0, 0, by decide⟩

/-- The event of a complete packet: the sign bits of the flags byte extend the deltas, and the
`y` delta is negated for screen coordinates. -/
def packetEvent (packet : Nat → UInt8) : MouseEvent :=
  let flags := packet 0
  let dxRaw : Int := (packet 1).toNat
  let dyRaw : Int := (packet 2).toNat
  let deltaX := if flags &&& 0x10 ≠ 0 then dxRaw - 256 else dxRaw
  let deltaY := if flags &&& 0x20 ≠ 0 then dyRaw - 256 else dyRaw
  ⟨deltaX, -deltaY, flags &&& 0x01 ≠ 0, flags &&& 0x02 ≠ 0, flags &&& 0x04 ≠ 0⟩

/-- `MousePacketState::add_byte`: a first byte without bit 3 is skipped; the third byte
completes the packet. -/
def addByte (s : MousePacketState) (byte : UInt8) : Option MouseEvent × MousePacketState :=
  if s.index = 0 ∧ byte &&& 0x08 = 0 then (none, s)
  else
    let bytes := Function.update s.bytes s.index byte
    if h : s.index + 1 ≥ 3 then (some (packetEvent bytes), ⟨bytes, 0, by decide⟩)
    else (none, ⟨bytes, s.index + 1, Nat.lt_of_not_le h⟩)

/-- The whole byte stream fed to the assembler: every event it completes, in order. -/
def feed (s : MousePacketState) : List UInt8 → List MouseEvent × MousePacketState
  | [] => ([], s)
  | byte :: rest =>
      let (e, s') := s.addByte byte
      let (es, s'') := feed s' rest
      (e.toList ++ es, s'')

/-- The loop of `poll_mouse_event` over the drained bytes: they are fed until one completes a
packet, and the rest are not. -/
def firstEvent (s : MousePacketState) : List UInt8 → Option MouseEvent × MousePacketState
  | [] => (none, s)
  | byte :: rest =>
      match s.addByte byte with
      | (some e, s') => (some e, s')
      | (none, s') => firstEvent s' rest

end MousePacketState

/-- Up to `n` pops: the loop of `poll_mouse_event` that fills its local array. -/
def drain {N : Nat} : Nat → RingBuffer N → List UInt8 × RingBuffer N
  | 0, rb => ([], rb)
  | n + 1, rb =>
      match rb.pop with
      | (none, rb') => ([], rb')
      | (some byte, rb') =>
          let (bytes, rb'') := drain n rb'
          (byte :: bytes, rb'')

/-- The state of the input subsystem: `KEYBOARD_BUFFER`, `MOUSE_BUFFER` and
`MOUSE_PACKET_STATE`. -/
structure Input where
  keyboard : RingBuffer KEYBOARD_BUFFER_SIZE
  mouse : RingBuffer MOUSE_BUFFER_SIZE
  mousePacket : MousePacketState

namespace Input

/-- The state at boot. -/
def init : Input :=
  ⟨RingBuffer.new _ (by decide), RingBuffer.new _ (by decide), MousePacketState.new⟩

/-- `poll_key_event`. -/
def pollKeyEvent (inp : Input) : Option KeyEvent × Input :=
  match inp.keyboard.pop with
  | (none, kb) => (none, { inp with keyboard := kb })
  | (some byte, kb) =>
      if byte = 0xF0 then
        -- the scancode-set-2 release prefix: the next byte is the key released
        match kb.pop with
        | (some scancode, kb') => (some ⟨scancode, false⟩, { inp with keyboard := kb' })
        | (none, kb') => (none, { inp with keyboard := kb' })
      else (some ⟨byte &&& 0x7F, byte &&& 0x80 = 0⟩, { inp with keyboard := kb })

/-- `poll_mouse_event`. -/
def pollMouseEvent (inp : Input) : Option MouseEvent × Input :=
  let (localBytes, mouse) := drain 16 inp.mouse
  if localBytes.length = 0 then (none, { inp with mouse })
  else
    let (e, packet) := inp.mousePacket.firstEvent localBytes
    (e, { inp with mouse, mousePacket := packet })

/-- What moves the input subsystem. -/
inductive Call where
  | keyboardIrq (scancodes : List UInt8)
  | mouseIrq (bytes : List UInt8)
  | pollKey
  | pollMouse

/-- What a call answers. -/
inductive Answer where
  | done
  | key (e : Option KeyEvent)
  | mouse (e : Option MouseEvent)
  deriving DecidableEq

/-- One call. -/
def call (inp : Input) : Call → Answer × Input
  | .keyboardIrq scancodes => (.done, { inp with keyboard := onKeyboardIrq inp.keyboard scancodes })
  | .mouseIrq bytes => (.done, { inp with mouse := onMouseIrq inp.mouse bytes })
  | .pollKey => (.key inp.pollKeyEvent.1, inp.pollKeyEvent.2)
  | .pollMouse => (.mouse inp.pollMouseEvent.1, inp.pollMouseEvent.2)

/-- The key events among a run's answers. -/
def keyEvents : List Answer → List KeyEvent
  | [] => []
  | .key (some e) :: rest => e :: keyEvents rest
  | _ :: rest => keyEvents rest

/-- The mouse events among a run's answers. -/
def mouseEvents : List Answer → List MouseEvent
  | [] => []
  | .mouse (some e) :: rest => e :: mouseEvents rest
  | _ :: rest => mouseEvents rest

end Input

/-! ### The buffers' bytes -/

namespace RingBuffer

variable {N : Nat}

theorem pop_contents (rb : RingBuffer N) :
    rb.pop.1 = rb.contents.head? ∧ rb.pop.2.contents = rb.contents.tail := rb.pop_spec

end RingBuffer

/-- **`drain` takes up to `n` bytes off the front.** -/
theorem drain_spec {N : Nat} : ∀ (n : Nat) (rb : RingBuffer N),
    (drain n rb).1 = rb.contents.take n ∧ (drain n rb).2.contents = rb.contents.drop n
  | 0, rb => ⟨rfl, rfl⟩
  | n + 1, rb => by
      obtain ⟨hans, hrest⟩ := rb.pop_contents
      unfold drain
      cases hc : rb.contents with
      | nil =>
          rw [hc, List.head?_nil] at hans
          rw [hc, List.tail_nil] at hrest
          rw [show rb.pop = (none, rb.pop.2) from Prod.ext hans rfl]
          exact ⟨rfl, hrest⟩
      | cons byte rest =>
          rw [hc, List.head?_cons] at hans
          rw [hc, List.tail_cons] at hrest
          rw [show rb.pop = (some byte, rb.pop.2) from Prod.ext hans rfl]
          obtain ⟨ih1, ih2⟩ := drain_spec n rb.pop.2
          rw [hrest] at ih1 ih2
          exact ⟨by rw [List.take_succ_cons, ← ih1], ih2⟩

namespace Input

/-- What `poll_key_event` makes of the bytes the keyboard buffer holds: the event, and the bytes
left. -/
def decodeKey : List UInt8 → Option KeyEvent × List UInt8
  | [] => (none, [])
  | byte :: rest =>
      if byte = 0xF0 then (rest.head?.map fun scancode => ⟨scancode, false⟩, rest.tail)
      else (some ⟨byte &&& 0x7F, byte &&& 0x80 = 0⟩, rest)

/-- A `0xF0` and then `0x1C` (the `A` key in set 2): polled as they arrive, they give a press of
`0x1C`; buffered first, a release of it.  Both runs end with the buffer drained. -/
theorem pollKeyEvent_releaseSplit :
    keyEvents (runOut call init [.keyboardIrq [0xF0], .pollKey, .keyboardIrq [0x1C], .pollKey,
      .pollKey]).1 = [⟨0x1C, true⟩] ∧
    (runOut call init [.keyboardIrq [0xF0], .pollKey, .keyboardIrq [0x1C], .pollKey,
      .pollKey]).2.keyboard.contents = [] ∧
    keyEvents (runOut call init [.keyboardIrq [0xF0, 0x1C], .pollKey, .pollKey]).1 = [⟨0x1C, false⟩] ∧
    (runOut call init [.keyboardIrq [0xF0, 0x1C], .pollKey, .pollKey]).2.keyboard.contents = [] := by
  decide

/-! ### Two packets in one drain -/

end Input

namespace MousePacketState

variable {s : MousePacketState}

/-- The assembler after the three bytes of a packet. -/
def afterPacket (s : MousePacketState) (b0 b1 b2 : UInt8) : Option MouseEvent × MousePacketState :=
  ((s.addByte b0).2.addByte b1).2.addByte b2

end MousePacketState

namespace Input

/-- Two packets `08 01 02` and `08 03 04` arrive in one mouse interrupt: the first poll returns
the first packet's event and the second poll nothing, with the buffer drained, while the same
bytes fed to one assembler give two events. -/
theorem pollMouseEvent_packetsDrained :
    mouseEvents (runOut call init [.mouseIrq [0x08, 1, 2, 0x08, 3, 4], .pollMouse, .pollMouse]).1 =
      [⟨1, -2, false, false, false⟩] ∧
    (runOut call init [.mouseIrq [0x08, 1, 2, 0x08, 3, 4], .pollMouse, .pollMouse]).2.mouse.contents = [] ∧
    (MousePacketState.new.feed [0x08, 1, 2, 0x08, 3, 4]).1 =
      [⟨1, -2, false, false, false⟩, ⟨3, -4, false, false, false⟩] := by
  decide

end Input

end Atom
