import Atom.Lib.LittleEndian

/-!
# libipc — message codecs

The wire formats of `libipc/src/messages.rs`. Each message is a packed record of little-endian
fields at fixed offsets: `to_bytes` writes the fields in order, and `from_bytes` refuses a buffer
shorter than the record, then reads each field back at its offset, an enum through its
`from_u8` or `from_u32`, which refuses unknown tags. `CreateWindowRequest` ends with a UTF-8
title after its length, written as a `u32`.

What a codec is for is `Codec`: it writes a record of its size, reads back what it wrote whatever
follows it, and refuses every shorter buffer.

* `MessageHeader.codec`, `KeyEvent.codec`, …: each fixed-size record is a `Codec` of its size,
  from one round trip per field and one per enum.
* `CreateWindowRequest.fromBytes_toBytes`: a request whose title is shorter than `2 ^ 32` bytes
  is read back; `CreateWindowRequest.fromBytes_short` refuses a buffer shorter than `12` bytes
  plus the title length it declares.
* `codecs_roundTrip`: the nine codecs together.

`MessageHeader::new`, with its sequence counter, and `Rect::new` build values and read no bytes;
they are left out.
-/

namespace Atom.Libipc

open Lib.LittleEndian

/-- What a codec of records of `size` bytes does: it writes `size` bytes, reads back what it
wrote whatever follows, and refuses every shorter buffer. -/
structure Codec {α : Type} (size : Nat) (toBytes : α → List UInt8)
    (fromBytes : List UInt8 → Option α) : Prop where
  length_toBytes : ∀ v, (toBytes v).length = size
  fromBytes_toBytes : ∀ v s, fromBytes (toBytes v ++ s) = some v
  fromBytes_short : ∀ b : List UInt8, b.length < size → fromBytes b = none

/-- A decoder that refuses short buffers first, then reads its fields with `body`, is a codec as
soon as `body` reads back every record followed by anything. -/
theorem Codec.guarded {α : Type} {size : Nat} {toBytes : α → List UInt8}
    {fromBytes body : List UInt8 → Option α}
    (hfrom : ∀ bs, fromBytes bs = if bs.length < size then none else body bs)
    (hlen : ∀ v, (toBytes v).length = size) (hbody : ∀ v s, body (toBytes v ++ s) = some v) :
    Codec size toBytes fromBytes where
  length_toBytes := hlen
  fromBytes_toBytes v s := by
    have hlong : ¬ (toBytes v ++ s).length < size := by simp [hlen]
    rw [hfrom, if_neg hlong, hbody]
  fromBytes_short b hb := by rw [hfrom, if_pos hb]

/-! ### Fields

One reader and one writer per field type, `from_le_bytes` and `to_le_bytes`; the signed types
go through the unsigned ones of their width. The readers are unfolded by `simp`, so that the
lemmas of `LittleEndian` read a record field by field. -/

/-- `u32::from_le_bytes` of the four bytes at `off`. -/
@[simp] def u32At (bs : List UInt8) (off : Nat) : UInt32 := .ofNat (read bs off 4)

/-- `u64::from_le_bytes` of the eight bytes at `off`. -/
@[simp] def u64At (bs : List UInt8) (off : Nat) : UInt64 := .ofNat (read bs off 8)

/-- `i32::from_le_bytes` of the four bytes at `off`. -/
@[simp] def i32At (bs : List UInt8) (off : Nat) : Int32 := (u32At bs off).toInt32

/-- `i16::from_le_bytes` of the two bytes at `off`. -/
@[simp] def i16At (bs : List UInt8) (off : Nat) : Int16 := (UInt16.ofNat (read bs off 2)).toInt16

/-- `bytes[off]`, read once the length has been checked. -/
@[simp] def u8At (bs : List UInt8) (off : Nat) : UInt8 := bs.getD off 0

@[simp] def u32Bytes (x : UInt32) : List UInt8 := bytes 4 x.toNat

@[simp] def u64Bytes (x : UInt64) : List UInt8 := bytes 8 x.toNat

@[simp] def i32Bytes (x : Int32) : List UInt8 := bytes 4 x.toUInt32.toNat

@[simp] def i16Bytes (x : Int16) : List UInt8 := bytes 2 x.toUInt16.toNat

/-! ### Enumerations -/

/-- `MessageType`. -/
inductive MessageType where
  | keyDown | keyUp | keyPress
  | mouseMove | mouseButtonDown | mouseButtonUp | mouseScroll
  | createWindow | createWindowResponse | destroyWindow | resizeWindow | moveWindow
  | focusWindow | windowEvent
  | getFramebuffer | framebufferInfo | invalidateRect | present
  | createSurface | destroySurface | blitSurface
  | registerService | lookupService | serviceInfo
  | ping | pong | shutdown | error
  deriving DecidableEq, Repr

/-- `msg_type as u32`: the discriminants of `#[repr(u32)]`. -/
def MessageType.toU32 : MessageType → UInt32
  | .keyDown => 1 | .keyUp => 2 | .keyPress => 3
  | .mouseMove => 10 | .mouseButtonDown => 11 | .mouseButtonUp => 12 | .mouseScroll => 13
  | .createWindow => 100 | .createWindowResponse => 101 | .destroyWindow => 102
  | .resizeWindow => 103 | .moveWindow => 104 | .focusWindow => 105 | .windowEvent => 106
  | .getFramebuffer => 200 | .framebufferInfo => 201 | .invalidateRect => 202 | .present => 203
  | .createSurface => 210 | .destroySurface => 211 | .blitSurface => 212
  | .registerService => 300 | .lookupService => 301 | .serviceInfo => 302
  | .ping => 400 | .pong => 401 | .shutdown => 402 | .error => 499

/-- `MessageType::from_u32`. -/
def MessageType.fromU32 : UInt32 → Option MessageType
  | 1 => some .keyDown | 2 => some .keyUp | 3 => some .keyPress
  | 10 => some .mouseMove | 11 => some .mouseButtonDown | 12 => some .mouseButtonUp
  | 13 => some .mouseScroll
  | 100 => some .createWindow | 101 => some .createWindowResponse | 102 => some .destroyWindow
  | 103 => some .resizeWindow | 104 => some .moveWindow | 105 => some .focusWindow
  | 106 => some .windowEvent
  | 200 => some .getFramebuffer | 201 => some .framebufferInfo | 202 => some .invalidateRect
  | 203 => some .present
  | 210 => some .createSurface | 211 => some .destroySurface | 212 => some .blitSurface
  | 300 => some .registerService | 301 => some .lookupService | 302 => some .serviceInfo
  | 400 => some .ping | 401 => some .pong | 402 => some .shutdown | 499 => some .error
  | _ => none

@[simp] theorem MessageType.fromU32_toU32 (t : MessageType) : fromU32 t.toU32 = some t := by
  cases t <;> decide

/-- `MouseButton`. -/
inductive MouseButton where
  | left | right | middle
  deriving DecidableEq, Repr

/-- `button as u8`. -/
def MouseButton.toU8 : MouseButton → UInt8
  | .left => 0 | .right => 1 | .middle => 2

/-- `MouseButton::from_u8`. -/
def MouseButton.fromU8 : UInt8 → Option MouseButton
  | 0 => some .left | 1 => some .right | 2 => some .middle
  | _ => none

@[simp] theorem MouseButton.fromU8_toU8 (b : MouseButton) : fromU8 b.toU8 = some b := by
  cases b <;> decide

/-- `WindowEventType`. -/
inductive WindowEventType where
  | resize | move | focus | unfocus | close | expose
  deriving DecidableEq, Repr

/-- `event_type as u8`. -/
def WindowEventType.toU8 : WindowEventType → UInt8
  | .resize => 1 | .move => 2 | .focus => 3 | .unfocus => 4 | .close => 5 | .expose => 6

/-- `WindowEventType::from_u8`. -/
def WindowEventType.fromU8 : UInt8 → Option WindowEventType
  | 1 => some .resize | 2 => some .move | 3 => some .focus | 4 => some .unfocus
  | 5 => some .close | 6 => some .expose
  | _ => none

@[simp] theorem WindowEventType.fromU8_toU8 (t : WindowEventType) : fromU8 t.toU8 = some t := by
  cases t <;> decide

/-- `KeyModifiers`. -/
structure KeyModifiers where
  shift : Bool
  ctrl : Bool
  alt : Bool
  capsLock : Bool
  deriving DecidableEq, Repr

/-- `KeyModifiers::to_u8`: one bit per flag, set in turn. -/
def KeyModifiers.toU8 (m : KeyModifiers) : UInt8 :=
  let flags : UInt8 := 0
  let flags := if m.shift then flags ||| 0x01 else flags
  let flags := if m.ctrl then flags ||| 0x02 else flags
  let flags := if m.alt then flags ||| 0x04 else flags
  if m.capsLock then flags ||| 0x08 else flags

/-- `KeyModifiers::from_u8`. -/
def KeyModifiers.fromU8 (flags : UInt8) : KeyModifiers :=
  ⟨flags &&& 0x01 != 0, flags &&& 0x02 != 0, flags &&& 0x04 != 0, flags &&& 0x08 != 0⟩

@[simp] theorem KeyModifiers.fromU8_toU8 (m : KeyModifiers) : fromU8 m.toU8 = m := by
  obtain ⟨shift, ctrl, alt, capsLock⟩ := m
  cases shift <;> cases ctrl <;> cases alt <;> cases capsLock <;> decide

/-! ### Input events -/

/-- `MessageHeader`. -/
structure MessageHeader where
  msgType : MessageType
  payloadSize : UInt32
  sequence : UInt32
  deriving DecidableEq, Repr

namespace MessageHeader

/-- `MessageHeader::SIZE`: three fields of four bytes. -/
def SIZE : Nat := 12

/-- `MessageHeader::to_bytes`. -/
def toBytes (h : MessageHeader) : List UInt8 :=
  u32Bytes h.msgType.toU32 ++ u32Bytes h.payloadSize ++ u32Bytes h.sequence

/-- `MessageHeader::from_bytes`: an unknown message type is refused. -/
def fromBytes (bs : List UInt8) : Option MessageHeader :=
  if bs.length < SIZE then none
  else do
    let msgType ← MessageType.fromU32 (u32At bs 0)
    pure ⟨msgType, u32At bs 4, u32At bs 8⟩

theorem codec : Codec SIZE toBytes fromBytes :=
  .guarded (fun _ => rfl) (fun h => by simp [toBytes, SIZE]) fun h s => by simp [toBytes]

end MessageHeader

/-- `KeyEvent`. -/
structure KeyEvent where
  scancode : UInt8
  character : UInt8
  modifiers : KeyModifiers
  deriving DecidableEq, Repr

namespace KeyEvent

/-- `KeyEvent::to_bytes`. -/
def toBytes (e : KeyEvent) : List UInt8 := [e.scancode, e.character, e.modifiers.toU8]

/-- `KeyEvent::from_bytes`. -/
def fromBytes (bs : List UInt8) : Option KeyEvent :=
  if bs.length < 3 then none
  else some ⟨u8At bs 0, u8At bs 1, KeyModifiers.fromU8 (u8At bs 2)⟩

theorem codec : Codec 3 toBytes fromBytes :=
  .guarded (fun _ => rfl) (fun _ => rfl) fun e s => by simp [toBytes]

end KeyEvent

/-- `MouseMoveEvent`. -/
structure MouseMoveEvent where
  x : Int32
  y : Int32
  dx : Int16
  dy : Int16
  deriving DecidableEq, Repr

namespace MouseMoveEvent

/-- `MouseMoveEvent::to_bytes`. -/
def toBytes (e : MouseMoveEvent) : List UInt8 :=
  i32Bytes e.x ++ i32Bytes e.y ++ i16Bytes e.dx ++ i16Bytes e.dy

/-- `MouseMoveEvent::from_bytes`. -/
def fromBytes (bs : List UInt8) : Option MouseMoveEvent :=
  if bs.length < 12 then none
  else some ⟨i32At bs 0, i32At bs 4, i16At bs 8, i16At bs 10⟩

theorem codec : Codec 12 toBytes fromBytes :=
  .guarded (fun _ => rfl) (fun e => by simp [toBytes]) fun e s => by simp [toBytes]

end MouseMoveEvent

/-- `MouseButtonEvent`. -/
structure MouseButtonEvent where
  button : MouseButton
  x : Int32
  y : Int32
  deriving DecidableEq, Repr

namespace MouseButtonEvent

/-- `MouseButtonEvent::to_bytes`. -/
def toBytes (e : MouseButtonEvent) : List UInt8 := e.button.toU8 :: (i32Bytes e.x ++ i32Bytes e.y)

/-- `MouseButtonEvent::from_bytes`: an unknown button is refused. -/
def fromBytes (bs : List UInt8) : Option MouseButtonEvent :=
  if bs.length < 9 then none
  else do
    let button ← MouseButton.fromU8 (u8At bs 0)
    pure ⟨button, i32At bs 1, i32At bs 5⟩

theorem codec : Codec 9 toBytes fromBytes :=
  .guarded (fun _ => rfl) (fun e => by simp [toBytes]) fun e s => by simp [toBytes]

end MouseButtonEvent

/-! ### Window management -/

/-- `CreateWindowRequest`. -/
structure CreateWindowRequest where
  width : UInt32
  height : UInt32
  title : String
  deriving DecidableEq, Repr

/-- `core::str::from_utf8`, which refuses bytes that are not UTF-8. -/
def fromUtf8 (bs : List UInt8) : Option String := String.fromUTF8? ⟨bs.toArray⟩

theorem fromUtf8_asBytes (s : String) : fromUtf8 s.toByteArray.data.toList = some s := by
  rw [fromUtf8, Array.toArray_toList, String.fromUTF8?, dif_pos s.isValidUTF8]
  rfl

namespace CreateWindowRequest

/-- `title.as_bytes()`. -/
def titleBytes (r : CreateWindowRequest) : List UInt8 := r.title.toByteArray.data.toList

theorem length_titleBytes (r : CreateWindowRequest) : r.titleBytes.length = r.title.utf8ByteSize := by
  simp [titleBytes]

/-- `CreateWindowRequest::to_bytes`: the length of the title is cast to `u32`. -/
def toBytes (r : CreateWindowRequest) : List UInt8 :=
  u32Bytes r.width ++ u32Bytes r.height ++ u32Bytes (UInt32.ofNat r.titleBytes.length) ++
    r.titleBytes

/-- `CreateWindowRequest::from_bytes`: the title is the declared number of bytes after the first
twelve, and must be UTF-8. -/
def fromBytes (bs : List UInt8) : Option CreateWindowRequest :=
  if bs.length < 12 then none
  else
    let width := u32At bs 0
    let height := u32At bs 4
    let titleLen := (u32At bs 8).toNat
    if bs.length < 12 + titleLen then none
    else do
      let title ← fromUtf8 ((bs.drop 12).take titleLen)
      pure ⟨width, height, title⟩

theorem fromBytes_toBytes (r : CreateWindowRequest) (s : List UInt8)
    (h : r.title.utf8ByteSize < 2 ^ 32) : fromBytes (r.toBytes ++ s) = some r := by
  -- the three fields take the first twelve bytes, the title the next ones
  set pre := u32Bytes r.width ++ u32Bytes r.height ++ u32Bytes (UInt32.ofNat r.titleBytes.length)
  have hpre : pre.length = 12 := by simp [pre]
  have hbytes : r.toBytes ++ s = pre ++ (r.titleBytes ++ s) := by simp [toBytes, pre]
  have hlt : r.titleBytes.length < 2 ^ 32 := by rwa [length_titleBytes]
  have hfields : u32At (r.toBytes ++ s) 0 = r.width ∧ u32At (r.toBytes ++ s) 4 = r.height ∧
      (u32At (r.toBytes ++ s) 8).toNat = r.titleBytes.length := by
    simpa [hbytes, pre] using hlt
  obtain ⟨hwidth, hheight, hlen⟩ := hfields
  have htitle : ((r.toBytes ++ s).drop 12).take r.titleBytes.length = r.titleBytes := by
    rw [hbytes, List.drop_left' hpre, List.take_left' rfl]
  have hlong : ¬ (r.toBytes ++ s).length < 12 := by simp [hbytes, hpre]
  have hlong' : ¬ (r.toBytes ++ s).length < 12 + r.titleBytes.length := by simp [hbytes, hpre]
  rw [fromBytes, if_neg hlong]
  simp only [hwidth, hheight, hlen]
  rw [if_neg hlong', htitle, titleBytes, fromUtf8_asBytes]
  rfl

theorem fromBytes_short (b : List UInt8) (hb : b.length < 12 + (u32At b 8).toNat) :
    fromBytes b = none := by
  by_cases h12 : b.length < 12
  · rw [fromBytes, if_pos h12]
  · rw [fromBytes, if_neg h12]
    exact if_pos hb

end CreateWindowRequest

/-- `CreateWindowResponse`. -/
structure CreateWindowResponse where
  windowId : UInt32
  success : Bool
  deriving DecidableEq, Repr

namespace CreateWindowResponse

/-- `CreateWindowResponse::to_bytes`. -/
def toBytes (r : CreateWindowResponse) : List UInt8 :=
  u32Bytes r.windowId ++ [if r.success then 1 else 0]

/-- `CreateWindowResponse::from_bytes`: any byte but zero is success. -/
def fromBytes (bs : List UInt8) : Option CreateWindowResponse :=
  if bs.length < 5 then none else some ⟨u32At bs 0, u8At bs 4 != 0⟩

theorem codec : Codec 5 toBytes fromBytes :=
  .guarded (fun _ => rfl) (fun r => by simp [toBytes]) fun ⟨windowId, success⟩ s => by
    cases success <;> simp [toBytes]

end CreateWindowResponse

/-- `WindowEventMsg`. -/
structure WindowEventMsg where
  windowId : UInt32
  eventType : WindowEventType
  x : Int32
  y : Int32
  width : UInt32
  height : UInt32
  deriving DecidableEq, Repr

namespace WindowEventMsg

/-- `WindowEventMsg::to_bytes`. -/
def toBytes (m : WindowEventMsg) : List UInt8 :=
  u32Bytes m.windowId ++ m.eventType.toU8 :: (i32Bytes m.x ++ i32Bytes m.y ++ u32Bytes m.width ++
    u32Bytes m.height)

/-- `WindowEventMsg::from_bytes`: an unknown event type is refused. -/
def fromBytes (bs : List UInt8) : Option WindowEventMsg :=
  if bs.length < 21 then none
  else do
    let eventType ← WindowEventType.fromU8 (u8At bs 4)
    pure ⟨u32At bs 0, eventType, i32At bs 5, i32At bs 9, u32At bs 13, u32At bs 17⟩

theorem codec : Codec 21 toBytes fromBytes :=
  .guarded (fun _ => rfl) (fun m => by simp [toBytes]) fun m s => by simp [toBytes]

end WindowEventMsg

/-! ### Graphics -/

/-- `FramebufferInfo`. -/
structure FramebufferInfo where
  address : UInt64
  width : UInt32
  height : UInt32
  stride : UInt32
  bytesPerPixel : UInt32
  size : UInt64
  deriving DecidableEq, Repr

namespace FramebufferInfo

/-- `FramebufferInfo::to_bytes`. -/
def toBytes (f : FramebufferInfo) : List UInt8 :=
  u64Bytes f.address ++ u32Bytes f.width ++ u32Bytes f.height ++ u32Bytes f.stride ++
    u32Bytes f.bytesPerPixel ++ u64Bytes f.size

/-- `FramebufferInfo::from_bytes`. -/
def fromBytes (bs : List UInt8) : Option FramebufferInfo :=
  if bs.length < 32 then none
  else some ⟨u64At bs 0, u32At bs 8, u32At bs 12, u32At bs 16, u32At bs 20, u64At bs 24⟩

theorem codec : Codec 32 toBytes fromBytes :=
  .guarded (fun _ => rfl) (fun f => by simp [toBytes]) fun f s => by simp [toBytes]

end FramebufferInfo

/-- `Rect`. -/
structure Rect where
  x : Int32
  y : Int32
  width : UInt32
  height : UInt32
  deriving DecidableEq, Repr

namespace Rect

/-- `Rect::to_bytes`. -/
def toBytes (r : Rect) : List UInt8 :=
  i32Bytes r.x ++ i32Bytes r.y ++ u32Bytes r.width ++ u32Bytes r.height

/-- `Rect::from_bytes`. -/
def fromBytes (bs : List UInt8) : Option Rect :=
  if bs.length < 16 then none
  else some ⟨i32At bs 0, i32At bs 4, u32At bs 8, u32At bs 12⟩

theorem codec : Codec 16 toBytes fromBytes :=
  .guarded (fun _ => rfl) (fun r => by simp [toBytes]) fun r s => by simp [toBytes]

end Rect

/-! ### The nine codecs -/

/-- **The codecs of `libipc` round-trip**: each fixed-size record is a codec of its size, a
window request whose title is shorter than `2 ^ 32` bytes is read back whatever follows it, and a
buffer shorter than twelve bytes plus the title length it declares is refused. -/
theorem codecs_roundTrip :
    Codec MessageHeader.SIZE MessageHeader.toBytes MessageHeader.fromBytes ∧
    Codec 3 KeyEvent.toBytes KeyEvent.fromBytes ∧
    Codec 12 MouseMoveEvent.toBytes MouseMoveEvent.fromBytes ∧
    Codec 9 MouseButtonEvent.toBytes MouseButtonEvent.fromBytes ∧
    Codec 5 CreateWindowResponse.toBytes CreateWindowResponse.fromBytes ∧
    Codec 21 WindowEventMsg.toBytes WindowEventMsg.fromBytes ∧
    Codec 32 FramebufferInfo.toBytes FramebufferInfo.fromBytes ∧
    Codec 16 Rect.toBytes Rect.fromBytes ∧
    (∀ (r : CreateWindowRequest) (s : List UInt8), r.title.utf8ByteSize < 2 ^ 32 →
      CreateWindowRequest.fromBytes (r.toBytes ++ s) = some r) ∧
    (∀ b : List UInt8, b.length < 12 + (u32At b 8).toNat →
      CreateWindowRequest.fromBytes b = none) :=
  ⟨MessageHeader.codec, KeyEvent.codec, MouseMoveEvent.codec, MouseButtonEvent.codec,
    CreateWindowResponse.codec, WindowEventMsg.codec, FramebufferInfo.codec, Rect.codec,
    CreateWindowRequest.fromBytes_toBytes, CreateWindowRequest.fromBytes_short⟩

theorem codecs_roundTrip_terminal :
    CreateWindowRequest.fromBytes ((⟨640, 480, "Terminal"⟩ : CreateWindowRequest).toBytes ++ []) =
        some ⟨640, 480, "Terminal"⟩ ∧
      CreateWindowRequest.fromBytes [0, 0, 0, 0, 0, 0, 0, 0, 5, 0, 0, 0] = none :=
  ⟨codecs_roundTrip.2.2.2.2.2.2.2.2.1 _ _ (by decide),
    codecs_roundTrip.2.2.2.2.2.2.2.2.2 _ (by decide)⟩

end Atom.Libipc
