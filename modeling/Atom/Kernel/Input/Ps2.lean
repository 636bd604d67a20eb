import Atom.Kernel.Input.Events
import Atom.Lib.Transducer

/-!
# Input — the packets of a PS/2 mouse

A PS/2 mouse reports a movement as a packet of three bytes: a flags byte, with bit 3 always set,
the buttons in bits 0 to 2, the signs of the two deltas in bits 4 and 5 and their overflow in
bits 6 and 7; then the low bytes of the deltas, so that each delta is a nine-bit two's complement
value.  Two decoders of this repository read such a stream a byte at a time: the kernel's packet
assembler `MousePacketState::add_byte` and the mouse driver's `MouseDriver::process_byte`.

This module says what they decode, of the whole stream at once.  `packets` frames the stream as
both do: a byte without bit 3 is skipped while no packet is open, and a byte with it opens a
packet of three bytes.  `Movement` is what a packet reports, its deltas as integers, and
`Movement.encode` is the packet a mouse sends for it.  The kernel's assembler is a transducer
that simulates the framing (`MousePacketState.simulates`).

* `Ps2.packets_encode`: a stream of packets as a mouse sends them is framed back into those
  packets, and each reports the movement it encodes.
* `MousePacketState.feed_packets`: fed any byte stream, from any state it reaches, the kernel's
  assembler completes one event for each packet of the stream, in order: the packet's movement,
  with the y axis turned to screen coordinates.
-/

namespace Atom

open Lib

namespace Ps2

/-- The first byte of a packet has bit 3 set. -/
def opensPacket (b : UInt8) : Bool := b &&& 0x08 != 0

/-- The packets of a byte stream. -/
def packets (bs : List UInt8) : List (List UInt8) := Transducer.frames opensPacket 2 bs

/-- A nine-bit two's complement delta, from its low byte and its sign bit. -/
def nineBit (low : UInt8) (negative : Bool) : Int :=
  if negative then (low.toNat : Int) - 256 else low.toNat

theorem nineBit_range (low : UInt8) (negative : Bool) :
    -256 ≤ nineBit low negative ∧ nineBit low negative < 256 := by
  have := low.toNat_lt
  unfold nineBit
  split <;> omega

/-- What a packet reports: two nine-bit deltas and the three buttons. -/
@[ext]
structure Movement where
  dx : Int
  dy : Int
  left : Bool
  right : Bool
  middle : Bool
  dx_range : -256 ≤ dx ∧ dx < 256
  dy_range : -256 ≤ dy ∧ dy < 256

/-- A packet whose flags say that a delta overflowed. -/
def overflow (p : List UInt8) : Bool := p.getD 0 0 &&& 0xC0 != 0

namespace Movement

/-- The movement a packet `[flags, x, y]` reports. -/
def ofPacket (p : List UInt8) : Movement :=
  let flags := p.getD 0 0
  { dx := nineBit (p.getD 1 0) (flags &&& 0x10 != 0)
    dy := nineBit (p.getD 2 0) (flags &&& 0x20 != 0)
    left := flags &&& 0x01 != 0
    right := flags &&& 0x02 != 0
    middle := flags &&& 0x04 != 0
    dx_range := nineBit_range _ _
    dy_range := nineBit_range _ _ }

/-- The flags byte a mouse sends. -/
def flagsByte (left right middle xNegative yNegative : Bool) : UInt8 :=
  0x08 ||| (if left then 0x01 else 0) ||| (if right then 0x02 else 0) |||
    (if middle then 0x04 else 0) ||| (if xNegative then 0x10 else 0) ||| (if yNegative then 0x20 else 0)

/-- The low byte of a delta. -/
def lowByte (v : Int) : UInt8 := UInt8.ofNat (v % 256).toNat

/-- The packet a mouse sends for a movement. -/
def encode (m : Movement) : List UInt8 :=
  [flagsByte m.left m.right m.middle (decide (m.dx < 0)) (decide (m.dy < 0)), lowByte m.dx,
    lowByte m.dy]

/-- The event the kernel makes of a movement: on the screen the y axis points down. -/
def toEvent (m : Movement) : MouseEvent := ⟨m.dx, -m.dy, m.left, m.right, m.middle⟩

/-- The flags byte opens a packet, reports no overflow and carries each bit it is given. -/
theorem flagsByte_bits : ∀ left right middle xNegative yNegative : Bool,
    let f := flagsByte left right middle xNegative yNegative
    opensPacket f = true ∧ (f &&& 0xC0 != 0) = false ∧ (f &&& 0x10 != 0) = xNegative ∧
      (f &&& 0x20 != 0) = yNegative ∧ (f &&& 0x01 != 0) = left ∧ (f &&& 0x02 != 0) = right ∧
      (f &&& 0x04 != 0) = middle := by
  decide

theorem nineBit_lowByte {v : Int} (hv : -256 ≤ v ∧ v < 256) :
    nineBit (lowByte v) (decide (v < 0)) = v := by
  have hlow : ((lowByte v).toNat : Int) = v % 256 := by
    rw [lowByte, UInt8.toNat_ofNat', Nat.mod_eq_of_lt (by omega), Int.toNat_of_nonneg (by omega)]
  unfold nineBit
  split_ifs with hneg <;> simp at hneg <;> omega

/-- **A packet a mouse sends reports the movement it encodes.** -/
theorem ofPacket_encode (m : Movement) : ofPacket m.encode = m := by
  obtain ⟨-, -, hx, hy, hl, hr, hm⟩ :=
    flagsByte_bits m.left m.right m.middle (decide (m.dx < 0)) (decide (m.dy < 0))
  ext
  · simp only [ofPacket, encode, List.getD_cons_succ, List.getD_cons_zero, hx,
      nineBit_lowByte m.dx_range]
  · simp only [ofPacket, encode, List.getD_cons_succ, List.getD_cons_zero, hy,
      nineBit_lowByte m.dy_range]
  · simp only [ofPacket, encode, List.getD_cons_zero, hl]
  · simp only [ofPacket, encode, List.getD_cons_zero, hr]
  · simp only [ofPacket, encode, List.getD_cons_zero, hm]

theorem overflow_encode (m : Movement) : overflow m.encode = false :=
  (flagsByte_bits m.left m.right m.middle (decide (m.dx < 0)) (decide (m.dy < 0))).2.1

end Movement

/-- **The packets of a stream a mouse sends** are those it sent. -/
theorem packets_encode (ms : List Movement) :
    packets (ms.flatMap Movement.encode) = ms.map Movement.encode := by
  rw [packets, List.flatMap_def, Transducer.frames_flatten]
  intro p hp
  obtain ⟨m, -, rfl⟩ := List.mem_map.mp hp
  exact ⟨_, _, rfl,
    (Movement.flagsByte_bits m.left m.right m.middle (decide (m.dx < 0)) (decide (m.dy < 0))).1,
    rfl⟩

end Ps2

/-! ### The kernel's packet assembler -/

namespace MousePacketState

open Ps2

/-- The bytes of the packet being assembled. -/
def buffered (s : MousePacketState) : List UInt8 := (List.range s.index).map s.bytes

/-- A packet being assembled was opened by a byte with bit 3 set. -/
def Aligned (s : MousePacketState) : Prop := s.index ≠ 0 → opensPacket (s.bytes 0) = true

/-- `add_byte`, as the step of a transducer. -/
def step (s : MousePacketState) (byte : UInt8) : MousePacketState × Option MouseEvent :=
  (s.addByte byte).swap

theorem feed_eq_run (s : MousePacketState) (bs : List UInt8) :
    (s.feed bs).1 = (Transducer.run step s bs).2 := by
  induction bs generalizing s with
  | nil => rfl
  | cons b bs ih => simp only [feed, Transducer.run_cons, step, Prod.fst_swap, Prod.snd_swap, ih]

theorem packetEvent_eq (packet : Nat → UInt8) :
    packetEvent packet = (Movement.ofPacket [packet 0, packet 1, packet 2]).toEvent := by
  -- both read the same bits of the flags, the one as propositions and the other as booleans
  have hbit : ∀ mask : UInt8, decide (packet 0 &&& mask ≠ 0) = (packet 0 &&& mask != 0) :=
    fun mask => by by_cases h : packet 0 &&& mask = 0 <;> simp [h]
  simp only [packetEvent, Movement.ofPacket, Movement.toEvent, nineBit, List.getD_cons_zero,
    List.getD_cons_succ, ← hbit, decide_eq_true_eq]

/-- What `add_byte` does, at each number of bytes held: a byte without bit 3 is skipped while no
packet is open; otherwise it is stored, and the third completes the packet. -/
theorem addByte_of_index_zero {s : MousePacketState} (h : s.index = 0) (byte : UInt8) :
    s.addByte byte = if opensPacket byte then
      (none, ⟨Function.update s.bytes 0 byte, 1, by decide⟩) else (none, s) := by
  unfold addByte
  by_cases hb : opensPacket byte
  · have hb' : ¬(byte &&& 0x08 = 0) := by simpa [opensPacket] using hb
    simp only [h, hb', and_false, if_false, hb, if_true]
    rfl
  · have hb' : byte &&& 0x08 = 0 := by simpa [opensPacket] using hb
    simp [h, hb', hb]

theorem addByte_of_index_one {s : MousePacketState} (h : s.index = 1) (byte : UInt8) :
    s.addByte byte = (none, ⟨Function.update s.bytes 1 byte, 2, by decide⟩) := by
  unfold addByte
  dsimp only
  rw [if_neg (by simp [h]), dif_neg (by omega)]
  simp only [h]

theorem addByte_of_index_two {s : MousePacketState} (h : s.index = 2) (byte : UInt8) :
    s.addByte byte =
      (some (packetEvent (Function.update s.bytes 2 byte)), ⟨Function.update s.bytes 2 byte, 0, by decide⟩) := by
  unfold addByte
  dsimp only
  rw [if_neg (by simp [h]), dif_pos (by omega)]
  simp only [h]

theorem index_cases (s : MousePacketState) : s.index = 0 ∨ s.index = 1 ∨ s.index = 2 := by
  have := s.index_lt
  omega

@[simp] theorem buffered_mk (bytes : Nat → UInt8) (index : Nat) (h : index < 3) :
    buffered ⟨bytes, index, h⟩ = (List.range index).map bytes := rfl

theorem buffered_of_index {s : MousePacketState} {n : Nat} (h : s.index = n) :
    s.buffered = (List.range n).map s.bytes := by
  rw [buffered, h]

/-- **The assembler simulates the framing**: what it emits, packet by packet, is the movement of
each packet of the stream, turned to screen coordinates. -/
theorem simulates : Transducer.Simulates step Aligned buffered
    fun bs => (packets bs).map fun p => (Movement.ofPacket p).toEvent where
  step_inv s byte hs := by
    rcases index_cases s with h | h | h
    · rw [step, addByte_of_index_zero h]
      split_ifs with hb
      · exact fun _ => by simpa using hb
      · exact hs
    · rw [step, addByte_of_index_one h]
      -- the byte is stored after the one that opened the packet
      exact fun _ => by simpa using hs (by omega)
    · rw [step, addByte_of_index_two h]
      exact fun h0 => absurd rfl h0
  step_out s byte bs hs := by
    rcases index_cases s with h | h | h
    · rw [step, addByte_of_index_zero h, buffered_of_index h]
      split_ifs with hb
      · simp
      · simp [packets, buffered_of_index h, Transducer.frames_cons_of_not (Bool.not_eq_true _ ▸ hb)]
    · rw [step, addByte_of_index_one h, buffered_of_index h]
      simp [List.range_succ]
    · -- the third byte completes the packet the first two opened
      have hopen : opensPacket (s.bytes 0) = true := hs (by omega)
      rw [step, addByte_of_index_two h, buffered_of_index h, packetEvent_eq]
      have hframe : packets (s.bytes 0 :: s.bytes 1 :: byte :: bs) =
          [s.bytes 0, s.bytes 1, byte] :: packets bs :=
        Transducer.frames_cons_append (k := 2) (f := [s.bytes 1, byte]) hopen rfl bs
      simp only [List.range_succ, List.range_zero, List.nil_append, List.map_cons, List.map_nil,
        List.cons_append, Prod.snd_swap, Prod.fst_swap, buffered_mk, Option.toList_some]
      rw [hframe]
      simp [Function.update_of_ne]
  flush s _ := by
    have hlen : s.buffered.length ≤ 2 := by
      have := s.index_lt
      simp only [buffered, List.length_map, List.length_range]
      omega
    rw [packets, Transducer.frames_of_length_le hlen, List.map_nil]

theorem aligned_new : new.Aligned := fun h => absurd rfl h

/-- **The kernel's packet assembler**, fed any byte stream from any state it reaches, completes one
event for each packet of the bytes it holds and the stream, in order: the packet's movement, with
the y axis turned to screen coordinates.  A byte without bit 3 that opens no packet is skipped, and
a packet still open when the stream ends completes nothing. -/
theorem feed_packets {s : MousePacketState} (hs : s.Aligned) (bs : List UInt8) :
    (s.feed bs).1 = (packets (s.buffered ++ bs)).map fun p => (Movement.ofPacket p).toEvent := by
  rw [feed_eq_run]
  exact simulates.run_out hs bs

theorem feed_packets_resync : new.Aligned ∧
    (new.feed [0x00, 0x19, 0x05, 0xFB, 0x08]).1 =
      (packets (new.buffered ++ [0x00, 0x19, 0x05, 0xFB, 0x08])).map
        fun p => (Movement.ofPacket p).toEvent :=
  ⟨aligned_new, feed_packets aligned_new _⟩

end MousePacketState

end Atom
