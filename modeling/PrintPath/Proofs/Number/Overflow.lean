import Mathlib
import PrintPath.Proofs.Number.Exact
import PrintPath.Proofs.Number.Rounding

/-!
# Numbers beyond the doubles

A quotient is rounded to a significand of 53 bits at most. If it has to take up a
carry, it becomes a power of two and the exponent grows by one. The exponent is too
great for a finite double exactly if the quotient is half a step beyond the greatest
one, or more.
-/

namespace PrintPath.Number

open Float.Model Float.Model.UnpackedFloat

/-! ## The range of the doubles -/

/-- Half a step beyond the greatest double. What is as great as this is beyond
the doubles. -/
def overflow : ℚ :=
  (2 ^ 54 - 1) * 2 ^ 970

theorem overflow_pos : 0 < overflow := by
  rw [overflow]
  exact mul_pos (by norm_num) (by positivity)

theorem two_zpow_le_overflow : (2 : ℚ) ^ (1023 : Int) ≤ overflow :=
  calc (2 : ℚ) ^ (1023 : Int)
      = 2 ^ 53 * 2 ^ 970 := by rw [zpow_ofNat, ← pow_add]
    _ ≤ overflow := mul_le_mul_of_nonneg_right (by norm_num) (by positivity)

theorem overflow_le_two_zpow : overflow ≤ (2 : ℚ) ^ (1024 : Int) :=
  calc overflow
      ≤ 2 ^ 54 * 2 ^ 970 := mul_le_mul_of_nonneg_right (by norm_num) (by positivity)
    _ = (2 : ℚ) ^ (1024 : Int) := by rw [zpow_ofNat, ← pow_add]

/-! ## The nearest double -/

theorem isFinite_nearest_iff_lt (n d : Nat) :
    (nearest n d).isFinite = true ↔ nearestWord n d < (fieldSize - 1) * leadingBit := by
  have word : (nearest n d).toModel.toBits.toBitVec.toNat = nearestWord n d := toBits_nearest n d
  have most := nearestWord_le n d
  constructor
  · intro finite
    refine lt_of_le_of_ne most fun last => ?_
    rw [nearest, last] at finite
    revert finite
    decide +kernel
  · intro below
    refine isFinite_unpack fun last => ?_
    rw [unpackExponent_eq_last_iff, word] at last
    unfold fieldSize leadingBit at *
    omega

/-- The exponent of the doubles around a quotient. -/
def quotientSpacing (n d : Nat) : Int :=
  max (-1074) (floorLog2 n d - 52)

/-- A quotient rounded to a multiple of its spacing. -/
def quotientSignificand (n d : Nat) : Nat :=
  roundEven (n <<< (-quotientSpacing n d).toNat) (d <<< (quotientSpacing n d).toNat)

theorem nearestWord_eq {n d : Nat} (pos : 0 < n) :
    nearestWord n d =
      min ((quotientSpacing n d + 1074).toNat * leadingBit + quotientSignificand n d)
        ((fieldSize - 1) * leadingBit) :=
  if_neg pos.ne'

section Nearest

variable {n d : Nat} (posN : 0 < n) (posD : 0 < d)

include posN posD

theorem two_zpow_floorLog2_le : (2 : ℚ) ^ floorLog2 n d ≤ (n : ℚ) / d := by
  rw [floorLog2_eq_log posN posD]
  exact Int.zpow_log_le_self Nat.one_lt_two (by positivity)

theorem lt_two_zpow_floorLog2 : (n : ℚ) / d < 2 ^ (floorLog2 n d + 1) := by
  rw [floorLog2_eq_log posN posD]
  exact Int.lt_zpow_succ_log_self Nat.one_lt_two _

theorem quotientSignificand_le : quotientSignificand n d ≤ 2 ^ 53 := by
  have coarse : floorLog2 n d + 1 ≤ 53 + quotientSpacing n d := by
    unfold quotientSpacing
    omega
  have below : ¬ ((2 ^ 53 : Nat) : ℚ) * 2 ^ quotientSpacing n d ≤ (1 : Nat) * (n / d) := by
    rw [not_le]
    calc (1 : Nat) * ((n : ℚ) / d)
        = n / d := by rw [Nat.cast_one, one_mul]
      _ < 2 ^ (floorLog2 n d + 1) := lt_two_zpow_floorLog2 posN posD
      _ ≤ 2 ^ (53 + quotientSpacing n d) := zpow_le_zpow_right₀ one_le_two coarse
      _ = ((2 ^ 53 : Nat) : ℚ) * 2 ^ quotientSpacing n d := by
          rw [zpow_add₀ two_ne_zero]
          norm_cast
  rw [mul_two_zpow_le_iff posD, Nat.one_mul, Nat.not_le] at below
  have floor := Nat.div_lt_of_lt_mul (below.trans_eq (Nat.mul_comm _ _))
  exact (roundEven_le _ _).trans floor

theorem two_zpow_spacing_le_div (normal : quotientSpacing n d = floorLog2 n d - 52) :
    (2 : ℚ) ^ (52 + quotientSpacing n d) ≤ (n : ℚ) / d := by
  rw [normal, add_sub_cancel]
  exact two_zpow_floorLog2_le posN posD

theorem le_quotientSignificand (normal : quotientSpacing n d = floorLog2 n d - 52) :
    2 ^ 52 ≤ quotientSignificand n d := by
  have above : ((2 ^ 52 : Nat) : ℚ) * 2 ^ quotientSpacing n d ≤ (1 : Nat) * (n / d) := by
    calc ((2 ^ 52 : Nat) : ℚ) * 2 ^ quotientSpacing n d
        = 2 ^ (52 + quotientSpacing n d) := by
          rw [zpow_add₀ two_ne_zero]
          norm_cast
      _ ≤ (n : ℚ) / d := two_zpow_spacing_le_div posN posD normal
      _ = (1 : Nat) * (n / d) := by rw [Nat.cast_one, one_mul]
  rw [mul_two_zpow_le_iff posD, Nat.one_mul] at above
  have pos : 0 < d <<< (quotientSpacing n d).toNat := Nat.shiftLeft_pos_iff.mpr posD
  exact ((Nat.le_div_iff_mul_le pos).mpr above).trans (div_le_roundEven _ _)

/-- Around the greatest double it is the carry that decides. -/
theorem overflow_le_div_iff (edge : quotientSpacing n d = 971) :
    overflow ≤ (n : ℚ) / d ↔ quotientSignificand n d = 2 ^ 53 := by
  have most := quotientSignificand_le posN posD
  have pos : 0 < d <<< (971 : Int).toNat := Nat.shiftLeft_pos_iff.mpr posD
  have twice : 2 * overflow = ((2 ^ 54 - 1 : Nat) : ℚ) * 2 ^ (971 : Int) := by
    rw [overflow, mul_left_comm, ← pow_succ', zpow_ofNat]
    norm_num
  have reach : 2 ^ 53 ≤ quotientSignificand n d ↔ _ := le_roundEven_iff _ (by decide) (edge ▸ pos)
  have scaled := mul_two_zpow_le_iff (n := n) posD (2 ^ 54 - 1) 2 971
  rw [← twice, Nat.cast_two, mul_le_mul_iff_right₀ two_pos] at scaled
  rw [edge] at reach
  rw [scaled]
  omega

end Nearest

/-- A double nearest to a quotient is finite unless the quotient is beyond the doubles. -/
theorem isFinite_nearest_iff (n : Nat) {d : Nat} (posD : 0 < d) :
    (nearest n d).isFinite = true ↔ (n : ℚ) / d < overflow := by
  rw [isFinite_nearest_iff_lt]
  rcases Nat.eq_zero_or_pos n with rfl | posN
  · have word : nearestWord 0 d = 0 := if_pos rfl
    rw [word, Nat.cast_zero, zero_div]
    exact iff_of_true (by decide) overflow_pos
  have most := quotientSignificand_le posN posD
  have spacing : quotientSpacing n d = max (-1074) (floorLog2 n d - 52) := rfl
  rw [nearestWord_eq posN]
  unfold leadingBit fieldSize
  rcases Int.lt_trichotomy (floorLog2 n d) 1023 with small | edge | great
  · refine iff_of_true (by omega) ?_
    calc (n : ℚ) / d
        < 2 ^ (floorLog2 n d + 1) := lt_two_zpow_floorLog2 posN posD
      _ ≤ 2 ^ (1023 : Int) := zpow_le_zpow_right₀ one_le_two (by omega)
      _ ≤ overflow := two_zpow_le_overflow
  · have last : quotientSpacing n d = 971 := by omega
    refine Iff.trans ?_ not_le
    rw [overflow_le_div_iff posN posD last, last]
    omega
  · have least := le_quotientSignificand posN posD (by omega)
    refine iff_of_false (by omega) (not_lt.mpr ?_)
    calc overflow
        ≤ 2 ^ (1024 : Int) := overflow_le_two_zpow
      _ ≤ 2 ^ floorLog2 n d := zpow_le_zpow_right₀ one_le_two (by omega)
      _ ≤ (n : ℚ) / d := two_zpow_floorLog2_le posN posD

end PrintPath.Number
