import Mathlib.Data.Nat.Digits.Defs

/-!
# Library — little-endian integers

An integer of `w` bytes stored lowest byte first: `bytes w x` (what `to_le_bytes` writes) and
`value bs` (what `from_le_bytes` reads), with `read bs off w`, the integer of the `w` bytes of
`bs` from offset `off` on: how a packed record is read out of a byte string.

* `value_bytes`: reading back the bytes of `x` gives `x` modulo `256 ^ w`.
* `read_append_of_le`, `read_bytes_append`: a field stored after a prefix of known length is
  read back at that offset, whatever follows it; `read_bytes_append_of_le` and
  `read_cons_of_pos` skip one field or one byte at a time, so that `simp` reads a packed record
  field by field.

Nothing here names a component of the kernel.
-/

namespace Atom.Lib.LittleEndian

/-- The `w` bytes of `x`, lowest first. -/
def bytes : Nat → Nat → List UInt8
  | 0, _ => []
  | w + 1, x => UInt8.ofNat (x % 256) :: bytes w (x / 256)

/-- The integer whose bytes, lowest first, are `bs`. -/
def value (bs : List UInt8) : Nat := Nat.ofDigits 256 (bs.map UInt8.toNat)

/-- The integer of the `w` bytes of `bs` from offset `off` on. -/
def read (bs : List UInt8) (off w : Nat) : Nat := value ((bs.drop off).take w)

@[simp] theorem length_bytes (w x : Nat) : (bytes w x).length = w := by
  induction w generalizing x with
  | zero => rfl
  | succ w ih => simp [bytes, ih]

@[simp] theorem value_nil : value [] = 0 := rfl

theorem value_cons (b : UInt8) (bs : List UInt8) : value (b :: bs) = b.toNat + 256 * value bs := by
  simp [value, Nat.ofDigits_cons]

/-- **Round trip**: the bytes of `x`, read back, are `x` modulo `256 ^ w`. -/
theorem value_bytes (w x : Nat) : value (bytes w x) = x % 256 ^ w := by
  induction w generalizing x with
  | zero => simp [bytes, Nat.mod_one]
  | succ w ih =>
      have hbyte : x % 256 % 2 ^ 8 = x % 256 := Nat.mod_eq_of_lt (Nat.mod_lt x (by decide))
      rw [bytes, value_cons, ih, UInt8.toNat_ofNat', hbyte, pow_succ' 256 w, Nat.mod_mul]

/-- The first `w` bytes of a list that starts with the bytes of `x` are read as `x`. -/
@[simp] theorem read_bytes_append (w x : Nat) (rest : List UInt8) :
    read (bytes w x ++ rest) 0 w = x % 256 ^ w := by
  rw [read, List.drop_zero, List.take_left' (length_bytes w x), value_bytes]

/-- Reading after a prefix is reading the rest. -/
theorem read_append_right (pre rest : List UInt8) (off w : Nat) :
    read (pre ++ rest) (pre.length + off) w = read rest off w := by
  rw [read, read, List.drop_append, Nat.add_sub_cancel_left,
    List.drop_eq_nil_of_le (by omega), List.nil_append]

/-- Reading at or past the end of a prefix reads the rest. -/
theorem read_append_of_le {pre : List UInt8} (rest : List UInt8) {off : Nat} (w : Nat)
    (h : pre.length ≤ off) : read (pre ++ rest) off w = read rest (off - pre.length) w := by
  obtain ⟨k, rfl⟩ := Nat.exists_eq_add_of_le h
  rw [read_append_right, Nat.add_sub_cancel_left]

/-- Reading past a field is reading what follows it. -/
@[simp] theorem read_bytes_append_of_le {w off : Nat} (x : Nat) (rest : List UInt8) (n : Nat)
    (h : w ≤ off) : read (bytes w x ++ rest) off n = read rest (off - w) n := by
  rw [read_append_of_le rest n (by simpa using h), length_bytes]

/-- Reading past a byte is reading what follows it. -/
@[simp] theorem read_cons_of_pos {off : Nat} (b : UInt8) (rest : List UInt8) (n : Nat)
    (h : 0 < off) : read (b :: rest) off n = read rest (off - 1) n := by
  rw [← List.singleton_append, read_append_of_le rest n (by simpa [Nat.one_le_iff_ne_zero,
    Nat.pos_iff_ne_zero] using h), List.length_singleton]

end Atom.Lib.LittleEndian
