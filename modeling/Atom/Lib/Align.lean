import Mathlib.Data.Nat.Bitwise

/-!
# Library — rounding up to an alignment

`roundUp x a` is the least multiple of `a` that is at least `x`, computed as
`(x + a - 1) / a * a`. Machine code computes it for a power of two `2 ^ k` with a mask: adding
`2 ^ k - 1`, then clearing the low `k` bits of the word.

* `roundUp_spec`: `roundUp x a` is at least `x`, below `x + a`, and a multiple of `a`.
* `and_mask_eq`: clearing the low `k` bits of a word of `w` bits, by `and` with the complement
  of `2 ^ k - 1`, rounds it down to a multiple of `2 ^ k`.

Nothing here names a component of the kernel.
-/

namespace Atom.Lib.Align

/-- The least multiple of `a` that is at least `x`. -/
def roundUp (x a : Nat) : Nat := (x + a - 1) / a * a

/-- **Rounding up**: at least `x`, below `x + a`, and a multiple of `a`. -/
theorem roundUp_spec {a : Nat} (ha : 0 < a) (x : Nat) :
    x ≤ roundUp x a ∧ roundUp x a < x + a ∧ roundUp x a % a = 0 := by
  have hd := Nat.div_add_mod (x + a - 1) a
  have hm := Nat.mod_lt (x + a - 1) ha
  unfold roundUp
  rw [Nat.mul_comm]
  refine ⟨by omega, by omega, Nat.mul_mod_right _ _⟩

/-- Clearing the low `k` bits of a `w`-bit word rounds it down to a multiple of `2 ^ k`. -/
theorem and_mask_eq {w k x : Nat} (hk : k ≤ w) (hx : x < 2 ^ w) :
    x &&& (2 ^ w - 1 - (2 ^ k - 1)) = x / 2 ^ k * 2 ^ k := by
  -- the mask is the `w - k` high bits of the word
  have hm : 2 ^ w - 1 - (2 ^ k - 1) = (2 ^ (w - k) - 1) <<< k := by
    have hpow : 2 ^ (w - k) * 2 ^ k = 2 ^ w := by rw [← Nat.pow_add, Nat.sub_add_cancel hk]
    have hle : 2 ^ k ≤ 2 ^ w := Nat.pow_le_pow_right (by decide) hk
    have hpos : 0 < 2 ^ k := Nat.two_pow_pos k
    rw [Nat.shiftLeft_eq, Nat.sub_mul, hpow, Nat.one_mul]
    omega
  rw [hm, ← Nat.shiftRight_eq_div_pow, ← Nat.shiftLeft_eq]
  apply Nat.eq_of_testBit_eq
  intro i
  rw [Nat.testBit_and, Nat.testBit_shiftLeft, Nat.testBit_shiftLeft, Nat.testBit_two_pow_sub_one,
    Nat.testBit_shiftRight]
  by_cases hi : k ≤ i
  · have hsub : k + (i - k) = i := by omega
    rw [hsub]
    by_cases hi' : i < w
    · simp [hi, show i - k < w - k by omega]
    · -- at bit `w` and above, `x` has no bits
      have hx' : x < 2 ^ i := lt_of_lt_of_le hx (Nat.pow_le_pow_right (by decide) (by omega))
      simp [hi, show ¬ i - k < w - k by omega, Nat.testBit_eq_false_of_lt hx']
  · simp [hi]

end Atom.Lib.Align
