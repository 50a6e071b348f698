import Mathlib.Data.Nat.Bitwise
import Mathlib.Tactic.Ring

/-!
# Bit fields of natural numbers as arithmetic

Masks with `2 ^ w - 1` are remainders, right shifts are quotients, and a shifted high part
joined with a low part that fits below it is a sum. With these rewrites every packing of
bounded fields into one word turns into linear arithmetic with literal coefficients.
-/

namespace BitFields

theorem and_mask1 (n : ℕ) : n &&& 0x01 = n % 2 := Nat.and_two_pow_sub_one_eq_mod n 1

theorem and_mask2 (n : ℕ) : n &&& 0x03 = n % 4 := Nat.and_two_pow_sub_one_eq_mod n 2

theorem and_mask4 (n : ℕ) : n &&& 0x0F = n % 16 := Nat.and_two_pow_sub_one_eq_mod n 4

theorem and_mask6 (n : ℕ) : n &&& 0x3F = n % 64 := Nat.and_two_pow_sub_one_eq_mod n 6

theorem and_mask7 (n : ℕ) : n &&& 0x7F = n % 128 := Nat.and_two_pow_sub_one_eq_mod n 7

theorem and_mask8 (n : ℕ) : n &&& 0xFF = n % 256 := Nat.and_two_pow_sub_one_eq_mod n 8

theorem and_mask15 (n : ℕ) : n &&& 0x7FFF = n % 32768 := Nat.and_two_pow_sub_one_eq_mod n 15

theorem shiftRight_eq (n w : ℕ) : n >>> w = n / 2 ^ w := Nat.shiftRight_eq_div_pow n w

/-- A high part and a low part that do not overlap are joined by addition. -/
theorem shiftLeft_or {w lo : ℕ} (hi : ℕ) (h : lo < 2 ^ w) : hi <<< w ||| lo = hi * 2 ^ w + lo := by
  rw [← Nat.shiftLeft_add_eq_or_of_lt h, Nat.shiftLeft_eq]

theorem or_shiftLeft {w lo : ℕ} (hi : ℕ) (h : lo < 2 ^ w) : lo ||| hi <<< w = lo + hi * 2 ^ w := by
  rw [Nat.lor_comm, shiftLeft_or hi h, Nat.add_comm]

/-- Three parts, each fitting below the next. -/
theorem shiftLeft_or_or {w v lo mid : ℕ} (hi : ℕ) (hv : v ≤ w) (hmid : mid < 2 ^ (w - v))
    (hlo : lo < 2 ^ v) :
    hi <<< w ||| mid <<< v ||| lo = hi * 2 ^ w + mid * 2 ^ v + lo := by
  have hpow : 2 ^ w = 2 ^ (w - v) * 2 ^ v := by rw [← pow_add, Nat.sub_add_cancel hv]
  have hstep : mid * 2 ^ v + lo < 2 ^ w := by
    have hle : (mid + 1) * 2 ^ v ≤ 2 ^ (w - v) * 2 ^ v := Nat.mul_le_mul_right _ hmid
    rw [hpow]
    calc mid * 2 ^ v + lo < mid * 2 ^ v + 2 ^ v := by omega
      _ = (mid + 1) * 2 ^ v := by ring
      _ ≤ _ := hle
  rw [Nat.lor_assoc, shiftLeft_or mid hlo, shiftLeft_or hi hstep, Nat.add_assoc]

end BitFields
