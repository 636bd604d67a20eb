import Mathlib
import Atom.Kernel.Input.Ps2

/-!
# Drivers — the PS/2 mouse

The userspace mouse driver of `userspace/drivers/mouse/src/main.rs`.  Once `init` has set the
mouse up, its loop polls the controller: `poll_mouse` reads a byte when the status register says
mouse data is waiting and hands it to `process_byte`, which assembles packets of three bytes by
`cycle`; `finalize_packet` decodes a complete packet into a `MouseState`, with `i16` deltas, and
drops one whose overflow bits are set.  `get_mouse_state` returns the last state and clears its
deltas.

The driver is a transducer over the bytes it reads, and it simulates the framing of `Ps2.packets`
(`MouseDriver.simulates`) from every state it reaches (`Reachable.synced`): `cycle` stays below 3,
so the fallback arm of `process_byte` is never taken, and a packet under way was opened by a byte
with bit 3, so the alignment check of `finalize_packet` never fails.  The `i16` arithmetic of the
sign extension never wraps: a decoded delta is the nine-bit value of its packet.

* `pollMouse_run`: over any run of polls, from any state the driver reaches once initialized,
  the states `poll_mouse` returns are the movements of the packets among the bytes it read, those
  that did not overflow, in order.
* `pollMouse_encode`: fed the packets a mouse sends for any list of movements, the driver
  returns exactly those movements, and the kernel's assembler returns them too.
-/

namespace Atom

open Lib Ps2

/-- `MouseState`. -/
structure MouseState where
  deltaX : Int16
  deltaY : Int16
  leftButton : Bool
  rightButton : Bool
  middleButton : Bool
  deriving DecidableEq, Repr

/-- `MouseDriver`; the array of the packet is a function on its three indices. -/
structure MouseDriver where
  packet : Fin 3 → UInt8
  cycle : UInt8
  state : MouseState
  initialized : Bool

/-- `STATUS_OUTPUT_FULL`. -/
def STATUS_OUTPUT_FULL : UInt8 := (1 : UInt8) <<< 0

/-- `STATUS_AUX_DATA`. -/
def STATUS_AUX_DATA : UInt8 := (1 : UInt8) <<< 5

/-- `aux_data_available`, of the status byte it reads. -/
def auxDataAvailable (status : UInt8) : Bool :=
  status &&& (STATUS_OUTPUT_FULL ||| STATUS_AUX_DATA) == (STATUS_OUTPUT_FULL ||| STATUS_AUX_DATA)

namespace MouseDriver

/-- `MouseDriver::new`. -/
def new : MouseDriver := ⟨fun _ => 0, 0, ⟨0, 0, false, false, false⟩, false⟩

/-- `init`, of the outcome of its handshake with the controller and the mouse: on success it sets
`initialized`. -/
def init (d : MouseDriver) (handshake : Bool) : MouseDriver × Bool :=
  if handshake then ({ d with initialized := true }, true) else (d, false)

/-- `finalize_packet`. -/
def finalizePacket (d : MouseDriver) : MouseDriver × Option MouseState :=
  let flags := d.packet 0
  if flags &&& 0x08 = 0 then (d, none)
  else if flags &&& 0xC0 ≠ 0 then (d, none)
  else
    let dx : Int16 := (d.packet 1).toUInt16.toInt16
    let dx := if flags &&& 0x10 ≠ 0 then dx - 256 else dx
    let dy : Int16 := (d.packet 2).toUInt16.toInt16
    let dy := if flags &&& 0x20 ≠ 0 then dy - 256 else dy
    let state : MouseState :=
      ⟨dx, dy, flags &&& 0x01 ≠ 0, flags &&& 0x02 ≠ 0, flags &&& 0x04 ≠ 0⟩
    ({ d with state }, some state)

/-- `process_byte`. -/
def processByte (d : MouseDriver) (byte : UInt8) : MouseDriver × Option MouseState :=
  match d.cycle with
  | 0 =>
      -- a first byte without bit 3 is out of step, and skipped
      if byte &&& 0x08 = 0 then (d, none)
      else ({ d with packet := Function.update d.packet 0 byte, cycle := 1 }, none)
  | 1 => ({ d with packet := Function.update d.packet 1 byte, cycle := 2 }, none)
  | 2 => finalizePacket { d with packet := Function.update d.packet 2 byte, cycle := 0 }
  | _ => ({ d with cycle := 0 }, none)

/-- `poll_mouse`, of the status byte it reads and the data byte it would read. -/
def pollMouse (d : MouseDriver) (status data : UInt8) : MouseDriver × Option MouseState :=
  if !d.initialized then (d, none)
  else if auxDataAvailable status then d.processByte data
  else (d, none)

/-- `get_mouse_state`: the state, and the driver with its deltas cleared. -/
def getMouseState (d : MouseDriver) : MouseState × MouseDriver :=
  (d.state, { d with state := { d.state with deltaX := 0, deltaY := 0 } })

/-- The states the driver reaches: from `new`, by `init`, the polls and `get_mouse_state`. -/
inductive Reachable : MouseDriver → Prop
  | new : Reachable new
  | init {d : MouseDriver} (handshake : Bool) : Reachable d → Reachable (d.init handshake).1
  | poll {d : MouseDriver} (status data : UInt8) : Reachable d → Reachable (d.pollMouse status data).1
  | get {d : MouseDriver} : Reachable d → Reachable d.getMouseState.2

end MouseDriver

/-! ### Decoding a packet -/

/-- The state the driver reports for a movement. -/
def Ps2.Movement.toState (m : Movement) : MouseState :=
  ⟨Int16.ofInt m.dx, Int16.ofInt m.dy, m.left, m.right, m.middle⟩

/-- What the driver reports of a packet: nothing when a delta overflowed, else its movement. -/
def MouseState.ofPacket (p : List UInt8) : Option MouseState :=
  if overflow p then none else some (Movement.ofPacket p).toState

/-- `b as i16` of a byte is its value. -/
theorem toInt_toInt16 (b : UInt8) : b.toUInt16.toInt16.toInt = b.toNat := by
  have hb := b.toNat_lt
  rw [← Int16.toInt_toBitVec, BitVec.toInt_eq_toNat_cond]
  have h1 : b.toUInt16.toInt16.toBitVec.toNat = b.toNat := by
    show (b.toBitVec.setWidth 16).toNat = _
    simp
  rw [h1, if_pos (by omega)]

/-- The sign extension of `finalize_packet` computes the nine-bit value: `wrapping_sub` never
wraps. -/
theorem signExtend_eq (b : UInt8) (c : Prop) [Decidable c] :
    (if c then b.toUInt16.toInt16 - 256 else b.toUInt16.toInt16) =
      Int16.ofInt (nineBit b (decide c)) := by
  have hb := b.toNat_lt
  have hsize : (Int16.size : Int) = 65536 := rfl
  apply Int16.toInt_inj.mp
  rw [Int16.toInt_ofInt]
  unfold nineBit
  by_cases hc : c
  · rw [if_pos hc, if_pos (by simpa using hc), Int16.toInt_sub, toInt_toInt16,
      show (256 : Int16).toInt = 256 by decide]
  · rw [if_neg hc, if_neg (by simpa using hc), toInt_toInt16, Int.bmod_def, hsize]
    omega

namespace MouseState

end MouseState

namespace MouseDriver

/-- `finalize_packet` on a packet opened by a byte with bit 3: it reports the packet's movement
and keeps it as the state, or drops a packet that overflowed. -/
theorem finalizePacket_of_opens {d : MouseDriver} (h : opensPacket (d.packet 0) = true) :
    d.finalizePacket =
      let o := MouseState.ofPacket [d.packet 0, d.packet 1, d.packet 2]
      (o.elim d fun s => { d with state := s }, o) := by
  have hopen : ¬(d.packet 0 &&& 0x08 = 0) := by simpa [opensPacket] using h
  have hbit : ∀ mask : UInt8, decide (d.packet 0 &&& mask ≠ 0) = (d.packet 0 &&& mask != 0) :=
    fun mask => by by_cases hm : d.packet 0 &&& mask = 0 <;> simp [hm]
  unfold finalizePacket MouseState.ofPacket
  dsimp only
  rw [if_neg hopen]
  by_cases hov : overflow [d.packet 0, d.packet 1, d.packet 2] = true
  · rw [if_pos (by simpa [overflow] using hov), if_pos hov]
    rfl
  · rw [if_neg (by simpa [overflow] using hov), if_neg hov]
    simp only [signExtend_eq, hbit, Option.elim, Movement.toState, Movement.ofPacket,
      List.getD_cons_zero, List.getD_cons_succ]

theorem processByte_of_cycle_zero {d : MouseDriver} (h : d.cycle = 0) (byte : UInt8) :
    d.processByte byte = if opensPacket byte then
      ({ d with packet := Function.update d.packet 0 byte, cycle := 1 }, none) else (d, none) := by
  unfold processByte
  rw [h]
  by_cases hb : opensPacket byte
  · rw [if_pos hb]
    exact if_neg (by simpa [opensPacket] using hb)
  · rw [if_neg hb]
    exact if_pos (by simpa [opensPacket] using hb)

theorem processByte_of_cycle_one {d : MouseDriver} (h : d.cycle = 1) (byte : UInt8) :
    d.processByte byte = ({ d with packet := Function.update d.packet 1 byte, cycle := 2 }, none) := by
  unfold processByte
  rw [h]
  rfl

theorem processByte_of_cycle_two {d : MouseDriver} (h : d.cycle = 2) (byte : UInt8) :
    d.processByte byte = finalizePacket { d with packet := Function.update d.packet 2 byte, cycle := 0 } := by
  unfold processByte
  rw [h]
  rfl

/-! ### The driver simulates the framing -/

/-- The bytes of the packet under way. -/
def buffered (d : MouseDriver) : List UInt8 := [d.packet 0, d.packet 1, d.packet 2].take d.cycle.toNat

/-- The driver is in step with the packets: `cycle` counts the bytes of a packet under way, which
was opened by a byte with bit 3. -/
structure Synced (d : MouseDriver) : Prop where
  cycle_lt : d.cycle < 3
  opened : d.cycle ≠ 0 → opensPacket (d.packet 0) = true

theorem cycle_cases {c : UInt8} (h : c < 3) : c = 0 ∨ c = 1 ∨ c = 2 := by
  have hn : c.toNat < 3 := UInt8.lt_iff_toNat_lt.mp h
  simp only [← UInt8.toNat_inj, UInt8.reduceToNat]
  omega

/-- **`process_byte` simulates the framing**: what it returns, byte by byte, is what the driver
reports of each packet of the stream. -/
theorem simulates : Transducer.Simulates processByte Synced buffered
    fun bs => (packets bs).filterMap MouseState.ofPacket where
  step_inv d byte hd := by
    rcases cycle_cases hd.cycle_lt with h | h | h
    · rw [processByte_of_cycle_zero h]
      split_ifs with hb
      · exact ⟨show (1 : UInt8) < 3 by decide, fun _ => by simpa using hb⟩
      · exact hd
    · rw [processByte_of_cycle_one h]
      -- the byte is stored after the one that opened the packet
      exact ⟨show (2 : UInt8) < 3 by decide, fun _ => by simpa using hd.opened (by simp [h])⟩
    · rw [processByte_of_cycle_two h, finalizePacket_of_opens (by simpa using hd.opened (by simp [h]))]
      cases MouseState.ofPacket _ <;> exact ⟨show (0 : UInt8) < 3 by decide, fun h0 => absurd rfl h0⟩
  step_out d byte bs hd := by
    rcases cycle_cases hd.cycle_lt with h | h | h
    · rw [processByte_of_cycle_zero h]
      split_ifs with hb
      · simp [buffered, h]
      · simp [buffered, h, packets, Transducer.frames_cons_of_not (Bool.not_eq_true _ ▸ hb)]
    · rw [processByte_of_cycle_one h]
      simp [buffered, h]
    · -- the third byte completes the packet the first two opened
      have hopen : opensPacket (d.packet 0) = true := hd.opened (by simp [h])
      have hframe : packets (d.packet 0 :: d.packet 1 :: byte :: bs) =
          [d.packet 0, d.packet 1, byte] :: packets bs :=
        Transducer.frames_cons_append (k := 2) (f := [d.packet 1, byte]) hopen rfl bs
      rw [processByte_of_cycle_two h, finalizePacket_of_opens (by simpa using hopen)]
      cases ho : MouseState.ofPacket [d.packet 0, d.packet 1, byte] <;>
        simp [buffered, h, hframe, ho]
  flush d hd := by
    have hlen : (buffered d).length ≤ 2 := by
      have hn : d.cycle.toNat < 3 := UInt8.lt_iff_toNat_lt.mp hd.cycle_lt
      simp only [buffered, List.length_take, List.length_cons, List.length_nil]
      omega
    rw [packets, Transducer.frames_of_length_le hlen, List.filterMap_nil]

/-! ### Polls -/

/-- The bytes `poll_mouse` reads in a run of polls, of the status byte and the data byte of each:
those of the polls that found mouse data waiting. -/
def bytesRead (polls : List (UInt8 × UInt8)) : List UInt8 :=
  polls.filterMap fun p => if auxDataAvailable p.1 then some p.2 else none

/-- `finalize_packet` drops the packet, or keeps the state it returns. -/
theorem finalizePacket_cases (d : MouseDriver) :
    d.finalizePacket = (d, none) ∨ ∃ s, d.finalizePacket = ({ d with state := s }, some s) := by
  unfold finalizePacket
  dsimp only
  by_cases h8 : d.packet 0 &&& 0x08 = 0
  · exact .inl (if_pos h8)
  rw [if_neg h8]
  by_cases hov : d.packet 0 &&& 0xC0 ≠ 0
  · exact .inl (if_pos hov)
  · exact .inr ⟨_, if_neg hov⟩

/-- `process_byte` changes the state only to the one it returns, and never `initialized`. -/
theorem processByte_keeps (d : MouseDriver) (byte : UInt8) :
    (d.processByte byte).1.initialized = d.initialized ∧
      (d.processByte byte).1.state = (d.processByte byte).2.getD d.state := by
  unfold processByte
  split
  · split_ifs <;> exact ⟨rfl, rfl⟩
  · exact ⟨rfl, rfl⟩
  · rcases finalizePacket_cases { d with packet := Function.update d.packet 2 byte, cycle := 0 } with h | ⟨s, h⟩
    all_goals rw [h]; exact ⟨rfl, rfl⟩
  · exact ⟨rfl, rfl⟩

theorem synced_init {d : MouseDriver} (hd : d.Synced) (handshake : Bool) :
    (d.init handshake).1.Synced := by
  unfold init
  split_ifs
  exacts [⟨hd.cycle_lt, hd.opened⟩, hd]

theorem synced_pollMouse {d : MouseDriver} (hd : d.Synced) (status data : UInt8) :
    (d.pollMouse status data).1.Synced := by
  unfold pollMouse
  split_ifs
  exacts [hd, simulates.step_inv d data hd, hd]

/-- **Every state the driver reaches is in step with the packets**, so the fallback arm of
`process_byte` and the alignment check of `finalize_packet` never fire. -/
theorem Reachable.synced {d : MouseDriver} (hd : d.Reachable) : d.Synced := by
  induction hd with
  | new => exact ⟨by decide, fun h => absurd rfl h⟩
  | init handshake _ ih => exact synced_init ih handshake
  | poll status data _ ih => exact synced_pollMouse ih status data
  | get _ ih => exact ⟨ih.cycle_lt, ih.opened⟩

/-- An initialized driver's polls feed `process_byte` the bytes they read, and nothing else. -/
theorem run_pollMouse {d : MouseDriver} (hi : d.initialized = true) (polls : List (UInt8 × UInt8)) :
    Transducer.run (fun d p => d.pollMouse p.1 p.2) d polls =
      Transducer.run processByte d (bytesRead polls) := by
  induction polls generalizing d with
  | nil => rfl
  | cons p polls ih =>
      by_cases ha : auxDataAvailable p.1
      · have hstep : d.pollMouse p.1 p.2 = d.processByte p.2 := by
          simp [pollMouse, hi, ha]
        rw [Transducer.run_cons, hstep, ih ((processByte_keeps d p.2).1.trans hi)]
        simp [bytesRead, ha]
      · have hstep : d.pollMouse p.1 p.2 = (d, none) := by
          simp [pollMouse, hi, ha]
        rw [Transducer.run_cons, hstep, ih hi]
        simp [bytesRead, ha]

/-- **The states `poll_mouse` returns**, over any run of polls from a state the driver reaches
once initialized, are what the driver reports of the packets among the bytes it reads, after the
bytes of the packet under way: the movements of those that did not overflow, in order. -/
theorem pollMouse_run {d : MouseDriver} (hd : d.Reachable) (hi : d.initialized = true)
    (polls : List (UInt8 × UInt8)) :
    (Transducer.run (fun d p => d.pollMouse p.1 p.2) d polls).2 =
      (packets (d.buffered ++ bytesRead polls)).filterMap MouseState.ofPacket := by
  rw [run_pollMouse hi]
  exact simulates.run_out hd.synced _

theorem pollMouse_run_initialized :
    (new.init true).1.Reachable ∧ (new.init true).1.initialized = true ∧
      (Transducer.run (fun d p => d.pollMouse p.1 p.2) (new.init true).1
          [(0x21, 0x09), (0x00, 0x00), (0x21, 0x03), (0x21, 0xFE), (0x21, 0x49), (0x21, 0x01),
            (0x21, 0x02)]).2 =
        (packets ((new.init true).1.buffered ++ bytesRead [(0x21, 0x09), (0x00, 0x00),
          (0x21, 0x03), (0x21, 0xFE), (0x21, 0x49), (0x21, 0x01), (0x21, 0x02)])).filterMap
          MouseState.ofPacket :=
  ⟨.init true .new, rfl, pollMouse_run (.init true .new) rfl _⟩

end MouseDriver

/-! ### What a mouse sends -/

theorem MouseState.ofPacket_encode (m : Movement) : MouseState.ofPacket m.encode = some m.toState := by
  rw [MouseState.ofPacket, Movement.overflow_encode, Movement.ofPacket_encode]
  rfl

/-- **The two decoders agree on what a mouse sends**: fed the packets a mouse sends for any list
of movements, the driver's `process_byte` returns exactly those movements, and the kernel's
assembler returns them too, in screen coordinates. -/
theorem decoders_encode (ms : List Movement) :
    (Transducer.run MouseDriver.processByte MouseDriver.new (ms.flatMap Movement.encode)).2 =
        ms.map Movement.toState ∧
      (MousePacketState.new.feed (ms.flatMap Movement.encode)).1 = ms.map Movement.toEvent := by
  have hdriver : MouseDriver.new.buffered = [] := rfl
  have hkernel : MousePacketState.new.buffered = [] := rfl
  constructor
  · rw [MouseDriver.simulates.run_out MouseDriver.Reachable.new.synced, hdriver, List.nil_append,
      packets_encode, List.filterMap_map]
    exact (List.filterMap_congr fun m _ => MouseState.ofPacket_encode m).trans
      (congrFun List.filterMap_eq_map' ms)
  · rw [MousePacketState.feed_eq_run, MousePacketState.simulates.run_out
      MousePacketState.aligned_new, hkernel, List.nil_append, packets_encode, List.map_map]
    exact List.map_congr_left fun m _ => by simp [Movement.ofPacket_encode]

end Atom
