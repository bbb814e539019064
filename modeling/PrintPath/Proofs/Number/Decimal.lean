import Mathlib
import PrintPath.Proofs.Number.Overflow
import PrintPath.Proofs.Number.Plain

/-!
# Decimals beyond the doubles

A decimal is read as a finite double exactly if its number is below the bound of the
doubles. The guards that keep powers of ten small do not change that.
-/

namespace PrintPath.Number

open Float.Model Float.Model.UnpackedFloat

/-- The number that a decimal stands for. -/
def Decimal.value (d : Decimal) : ℚ :=
  d.digits * 10 ^ d.exponent

theorem Decimal.value_eq_div (d : Decimal) :
    d.value = ((d.digits * 10 ^ d.exponent.toNat : Nat) : ℚ) /
      ((10 ^ (-d.exponent).toNat : Nat) : ℚ) := by
  have power : (10 : ℚ) ^ d.exponent = 10 ^ d.exponent.toNat / 10 ^ (-d.exponent).toNat := by
    rw [← zpow_natCast, ← zpow_natCast, ← zpow_sub₀ (by norm_num)]
    congr 1
    omega
  rw [value, power]
  push_cast
  rw [mul_div_assoc]

theorem overflow_le_value {d : Decimal} (some : d.digits ≠ 0) (great : 400 < d.exponent) :
    overflow ≤ d.value := by
  have one : (1 : ℚ) ≤ d.digits := Nat.one_le_cast.mpr (Nat.pos_of_ne_zero some)
  calc overflow
      ≤ 2 ^ (1024 : Int) := overflow_le_two_zpow
    _ ≤ 2 ^ (3 * 401 : Int) := zpow_le_zpow_right₀ one_le_two (by decide)
    _ = 8 ^ (401 : Int) := by
        rw [zpow_mul]
        norm_num
    _ ≤ 10 ^ (401 : Int) := zpow_le_zpow_left₀ (by decide) (by norm_num) (by norm_num)
    _ ≤ 10 ^ d.exponent := zpow_le_zpow_right₀ (by norm_num) great
    _ ≤ d.value := le_mul_of_one_le_left (zpow_nonneg (by norm_num) _) one

theorem value_lt_overflow {d : Decimal} (small : d.exponent < -(400 + d.digits.log2)) :
    d.value < overflow := by
  have digits : (d.digits : ℚ) < 10 ^ ((d.digits.log2 : Int) + 1) := by
    calc (d.digits : ℚ)
        < 2 ^ (d.digits.log2 + 1) := by exact_mod_cast Nat.lt_log2_self
      _ ≤ 10 ^ (d.digits.log2 + 1) := pow_le_pow_left₀ (by norm_num) (by norm_num) _
      _ = 10 ^ ((d.digits.log2 : Int) + 1) := by rw [← zpow_natCast, Nat.cast_succ]
  calc d.value
      < 10 ^ ((d.digits.log2 : Int) + 1) * 10 ^ d.exponent :=
        mul_lt_mul_of_pos_right digits (zpow_pos (by norm_num) _)
    _ = 10 ^ ((d.digits.log2 : Int) + 1 + d.exponent) := (zpow_add₀ (by norm_num) _ _).symm
    _ ≤ 1 := zpow_le_one_of_nonpos₀ (by norm_num) (by omega)
    _ ≤ 2 ^ (1023 : Int) := one_le_zpow₀ one_le_two (by decide)
    _ ≤ overflow := two_zpow_le_overflow

/-- A decimal is read as a finite double unless its number is beyond the doubles. -/
theorem isFinite_toFloat_iff (d : Decimal) : d.toFloat.isFinite = true ↔ d.value < overflow := by
  have zero : (nearest 0 1).isFinite = true := by decide +kernel
  unfold Decimal.toFloat
  split
  · next none =>
      rw [Decimal.value, none, Nat.cast_zero, zero_mul]
      exact iff_of_true zero overflow_pos
  · next some =>
      split
      · next great =>
          exact iff_of_false (by decide +kernel) (not_lt.mpr (overflow_le_value some great))
      · split
        · next small => exact iff_of_true zero (value_lt_overflow small)
        · rw [d.value_eq_div]
          exact isFinite_nearest_iff _ (Nat.pow_pos (by decide))

end PrintPath.Number
