import Mathlib
import PrintPath.Proofs.Number.Signs

/-!
# Absorbed addends

A double that is too small next to another one is lost in their sum. It must then be
half the distance between neighbouring doubles at most, and so the other one is 2^53
times as great or greater.
-/

namespace PrintPath.Number

/-- A sum in which the second addend is lost. -/
def Absorbs (x c : Float) : Prop :=
  (x + c == x) = true

instance (x c : Float) : Decidable (Absorbs x c) :=
  inferInstanceAs (Decidable ((x + c == x) = true))

theorem absorbs_iff {x c : Float} (hx : x.isFinite) (sum : (x + c).isFinite) :
    Absorbs x c ↔ value (x + c) = value x :=
  beq_iff_value_eq sum hx

section Difference

variable {x c : Float} (hx : x.isFinite) (hc : c.isFinite) (sum : (x + c).isFinite)

include hx hc sum

theorem closest_add : Closest (value x + value c) (x + c) :=
  (rounds_add hx hc).closest ((rounds_add hx hc).isFinite_iff.mp sum)

/-- A sum exceeds the first addend if the second one is positive and not absorbed. -/
theorem add_sub_pos_iff : 0 < x + c - x ↔ 0 < c ∧ ¬ Absorbs x c := by
  have closest := closest_add hx hc sum
  rw [sub_pos_iff sum hx, absorbs_iff hx sum, lt_iff_value_lt isFinite_zero hc, value_zero]
  constructor
  · intro above
    refine ⟨?_, above.ne'⟩
    by_contra low
    exact above.not_ge (closest.value_le hx (add_le_of_nonpos_right (not_lt.mp low)))
  · rintro ⟨pos, other⟩
    exact (closest.le_value hx (le_add_of_nonneg_right pos.le)).lt_of_ne (Ne.symm other)

theorem add_sub_neg_iff : x + c - x < 0 ↔ c < 0 ∧ ¬ Absorbs x c := by
  have closest := closest_add hx hc sum
  rw [sub_neg_iff sum hx, absorbs_iff hx sum, lt_iff_value_lt hc isFinite_zero, value_zero]
  constructor
  · intro below
    refine ⟨?_, below.ne⟩
    by_contra high
    exact below.not_ge (closest.le_value hx (le_add_of_nonneg_right (not_lt.mp high)))
  · rintro ⟨neg, other⟩
    exact (closest.value_le hx (add_le_of_nonpos_right neg.le)).lt_of_ne other

end Difference

/-! ## The distance to the next double -/

section Stuck

variable {x c : Float} {negative : Bool} {m : Nat} {q : Int}

/-- A finite double is followed by another one, unless it is the greatest. -/
theorem exists_value_eq_add (parted : parts x = .finite negative m q)
    (inner : value x + 2 ^ q < 2 ^ (1024 : ℤ)) :
    ∃ y : Float, y.isFinite ∧ value y = value x + 2 ^ q := by
  have range := inRange_of_parts parted
  have short := range.fits
  obtain ⟨k, size, valued⟩ : ∃ k : ℤ, k.natAbs = m ∧ value x = k * 2 ^ q := by
    refine ⟨(signOf negative).apply m, ?_, ?_⟩
    · cases negative with
      | false => exact Int.natAbs_natCast m
      | true => exact (Int.natAbs_neg _).trans (Int.natAbs_natCast m)
    · rw [cast_apply, value_of_parts parted]
      cases negative <;> rfl
  have next : value x + 2 ^ q = ((k + 1 : ℤ) : ℚ) * 2 ^ q := by
    rw [valued, Int.cast_add, Int.cast_one, add_mul, one_mul]
  rw [next] at inner ⊢
  by_cases edge : q ≤ 970
  · exact exists_value_eq_of_le (by omega) range.least edge
  · -- At the greatest exponent a carry leads beyond the doubles.
    have last : q = 971 := by have := range.most; omega
    subst last
    have fits : ((k + 1 : ℤ) : ℚ) < 2 ^ (53 : ℤ) := by
      rw [show (1024 : ℤ) = 53 + 971 from rfl, zpow_add₀ two_ne_zero] at inner
      exact lt_of_mul_lt_mul_right inner (zpow_pos two_pos 971).le
    have whole : k + 1 < 2 ^ 53 := by exact_mod_cast fits
    exact exists_value_eq (by omega) range.least range.most

theorem overflow_eq_sub : overflow = 2 ^ (1024 : ℤ) - 2 ^ (971 : ℤ) / 2 := by
  have great : (2 : ℚ) ^ (1024 : ℤ) = 2 ^ 54 * 2 ^ 970 := by rw [zpow_ofNat, ← pow_add]
  have step : (2 : ℚ) ^ (971 : ℤ) = 2 * 2 ^ 970 := by rw [zpow_ofNat, ← pow_succ']
  rw [overflow, great, step, mul_div_cancel_left₀ _ two_ne_zero, sub_mul, one_mul]

/-- What is added without effect is half the distance to the next double at most. -/
theorem le_half_of_stuck (parted : parts x = .finite negative m q) {d : ℚ} (pos : 0 < d)
    (small : value x + d < overflow) (stuck : Closest (value x + d) x) : d ≤ 2 ^ q / 2 := by
  have range := inRange_of_parts parted
  by_cases inner : value x + 2 ^ q < 2 ^ (1024 : ℤ)
  · -- Otherwise the next double would be closer.
    obtain ⟨y, hy, next⟩ := exists_value_eq_add parted inner
    have least := stuck.least y hy
    rw [next, sub_add_cancel_left, abs_neg, abs_of_pos pos, add_sub_add_left_eq_sub] at least
    rcases abs_cases ((2 : ℚ) ^ q - d) with ⟨e, -⟩ | ⟨e, -⟩
    · linarith
    · linarith [zpow_pos (two_pos : (0 : ℚ) < 2) q]
  · -- The double that follows would be half a step beyond the bound of the doubles.
    rw [not_lt] at inner
    have coarse : (2 : ℚ) ^ q ≤ 2 ^ (971 : ℤ) := zpow_le_zpow_right₀ one_le_two range.most
    linarith [overflow_eq_sub]

/-- The magnitude of what is absorbed. -/
theorem abs_value_le_half (parted : parts x = .finite negative m q) (hc : c.isFinite)
    (sum : (x + c).isFinite) (absorbed : Absorbs x c) : |value c| ≤ 2 ^ q / 2 := by
  have hx := isFinite_of_parts parted
  have small := (rounds_add hx hc).isFinite_iff.mp sum
  have stuck : Closest (value x + value c) x := by
    refine ⟨hx, fun y hy => ?_⟩
    have least := (closest_add hx hc sum).least y hy
    rwa [(absorbs_iff hx sum).mp absorbed] at least
  rw [abs_lt] at small
  rcases lt_trichotomy (value c) 0 with below | zero | above
  · -- Negative addends are absorbed as their opposites are, on the other side of zero.
    have opposite := stuck.neg
    rw [neg_add, ← value_neg hx] at opposite
    rw [abs_of_neg below]
    refine le_half_of_stuck (parts_neg parted) (neg_pos.mpr below) ?_ opposite
    rw [value_neg hx]
    linarith
  · rw [zero, abs_zero]
    positivity
  · rw [abs_of_pos above]
    exact le_half_of_stuck parted above small.2 stuck

/-- **Only what is 2^53 times smaller is absorbed.** -/
theorem le_abs_value_of_absorbs (hx : x.isFinite) (hc : c.isFinite) (sum : (x + c).isFinite)
    (absorbed : Absorbs x c) : 2 ^ 53 * |value c| ≤ |value x| := by
  obtain ⟨negative, m, q, parted⟩ := exists_parts_of_isFinite hx
  have half := abs_value_le_half parted hc sum absorbed
  rcases (inRange_of_parts parted).full with full | rfl
  · have long : (2 : ℚ) ^ 52 ≤ m := by exact_mod_cast full
    calc 2 ^ 53 * |value c|
        ≤ 2 ^ 53 * (2 ^ q / 2) := mul_le_mul_of_nonneg_left half (by positivity)
      _ = 2 ^ 52 * 2 ^ q := by ring
      _ ≤ m * 2 ^ q := mul_le_mul_of_nonneg_right long (by positivity)
      _ = |value x| := (abs_value parted).symm
  · -- There is no double but zero that is smaller than the least distance.
    rcases coarse_value hc with zero | large
    · rw [zero, abs_zero, mul_zero]
      exact abs_nonneg _
    · linarith [zpow_pos (two_pos : (0 : ℚ) < 2) (-1074)]

end Stuck

end PrintPath.Number
