import Mathlib
import PrintPath.Proofs.Number.Exact

/-!
# Doubles as whole numbers

Rounding to a whole number of 64 bits, stated on the rational number that a double
stands for: a half goes away from zero, numbers beyond the range go to its ends, and
an undefined one goes to zero.
-/

namespace PrintPath.Number

/-- A rational number rounded to a whole one, a half away from zero. -/
def roundAway (r : ℚ) : ℤ :=
  if 0 ≤ r then ⌊r + 1 / 2⌋ else -⌊-r + 1 / 2⌋

example : [5 / 2, -5 / 2, 7 / 3, -1 / 3].map roundAway = [3, -3, 2, 0] := by
  decide +kernel

/-- The whole number of 64 bits that a double is rounded to. -/
def wholeInt64 (x : Float) : ℤ :=
  if x.isNaN then 0
  else if x.isFinite then max leastInt64 (min greatestInt64 (roundAway (value x)))
  else if x < 0 then leastInt64
  else greatestInt64

/-! ## The classes of a double -/

section Parts

variable {x : Float} {negative : Bool}

theorem isNaN_of_parts (h : parts x = .nan) : x.isNaN = true := by
  have undefined : x.toModel.unpack = .notANumber := unpack_of_parts h
  show x.toModel.unpack.isNaN = true
  rw [undefined]
  rfl

/-- There is one infinity of either sign. -/
theorem eq_of_parts_infinity (h : parts x = .infinity negative) :
    x = withSign negative (Float.ofBits 0x7ff0000000000000) := by
  refine parts_injective (h.trans ?_)
  cases negative <;> decide +kernel

end Parts

/-! ## Rounding -/

theorem roundAway_neg {r : ℚ} (h : 0 ≤ r) : roundAway (-r) = -roundAway r := by
  unfold roundAway
  rw [if_pos h]
  rcases h.eq_or_lt with rfl | pos
  · decide +kernel
  · rw [if_neg (by linarith), neg_neg]

theorem roundAway_intCast (i : ℤ) : roundAway i = i := by
  have floor (j : ℤ) : ⌊(j : ℚ) + 1 / 2⌋ = j := by
    rw [Int.floor_eq_iff]
    constructor <;> linarith
  unfold roundAway
  split
  · exact floor i
  · rw [← Int.cast_neg, floor, neg_neg]

theorem abs_roundAway_sub_le (r : ℚ) : |(roundAway r : ℚ) - r| ≤ 1 / 2 := by
  have below (s : ℚ) := Int.floor_le (s + 1 / 2)
  have above (s : ℚ) := Int.lt_floor_add_one (s + 1 / 2)
  unfold roundAway
  rw [abs_le]
  split
  · have := below r
    have := above r
    constructor <;> linarith
  · have := below (-r)
    have := above (-r)
    push_cast
    constructor <;> linarith

theorem roundAway_natCast_div (n d : Nat) :
    roundAway ((n : ℚ) / d) = ((2 * n + d) / (2 * d) : Nat) := by
  unfold roundAway
  rw [if_pos (by positivity)]
  rcases Nat.eq_zero_or_pos d with rfl | pos
  · norm_num
  · have halves : (n : ℚ) / d + 1 / 2 = ((2 * n + d : Nat) : ℚ) / ((2 * d : Nat) : ℚ) := by
      push_cast
      field_simp
    rw [halves, Rat.floor_natCast_div_natCast, Int.natCast_ediv]

theorem roundAway_wholeNearest (m : Nat) (q : Int) :
    roundAway (m * 2 ^ q) = (wholeNearest m q : ℤ) := by
  unfold wholeNearest roundUp
  rcases Int.lt_or_le q 0 with fraction | whole
  · obtain ⟨k, rfl⟩ : ∃ k : Nat, q = -(k : ℤ) := ⟨q.natAbs, by omega⟩
    have quotient : (m : ℚ) * 2 ^ (-(k : ℤ)) = (m : ℚ) / ((2 ^ k : Nat) : ℚ) := by
      rw [zpow_neg, zpow_natCast, div_eq_mul_inv]
      push_cast
      rfl
    rw [if_neg (Int.not_le.mpr fraction), quotient, roundAway_natCast_div, Int.neg_neg,
      Int.toNat_natCast, Nat.one_shiftLeft]
  · obtain ⟨k, rfl⟩ := Int.eq_ofNat_of_zero_le whole
    have product : (m : ℚ) * 2 ^ (k : ℤ) = ((m * 2 ^ k : Nat) : ℚ) / ((1 : Nat) : ℚ) := by
      rw [zpow_natCast]
      push_cast
      rw [div_one]
    rw [if_pos whole, product, roundAway_natCast_div, Int.toNat_natCast, Nat.shiftLeft_eq]
    congr 1
    omega

end PrintPath.Number
