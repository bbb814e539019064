import Mathlib.Algebra.Order.Ring.Nat
import PrintPath.Number.Rounding

/-!
# Rounding by shifting

A significand that is too long for a double is shifted to the right. Of the bits
that it loses two are kept: the last one, and whether there was any before it.
The remainder of a division is told by two such bits as well. They are enough to
round the quotient as `roundEven` does, however far it is shifted.
-/

namespace PrintPath.Number

open Float.Model.UnpackedFloat

/-! ## Nearest whole numbers -/

section Whole

variable (n : Nat) {d : Nat}

theorem div_le_roundEven (d : Nat) : n / d ≤ roundEven n d := by
  unfold roundEven
  dsimp only
  split
  · exact Nat.le_refl _
  · split <;> omega

theorem roundEven_le (d : Nat) : roundEven n d ≤ n / d + 1 := by
  unfold roundEven
  dsimp only
  split
  · omega
  · split <;> omega

/-- A quotient rounds to an even number or beyond exactly if it misses that
number by a half at most. -/
theorem le_roundEven_iff {N : Nat} (even : N % 2 = 0) (pos : 0 < d) :
    N ≤ roundEven n d ↔ 2 * (N * d) ≤ 2 * n + d := by
  have division : n / d * d + n % d = n := Nat.div_add_mod' n d
  have remainder : n % d < d := Nat.mod_lt n pos
  have upTo {a : Nat} (h : N ≤ a) : N * d ≤ a * d := Nat.mul_le_mul_right d h
  have beyond {a : Nat} (h : a < N) : a * d + d ≤ N * d := by
    rw [← Nat.succ_mul]
    exact Nat.mul_le_mul_right d h
  by_cases less : 2 * (n % d) < d
  · rw [roundEven, if_pos less]
    constructor
    · intro h
      have := upTo h
      omega
    · intro h
      by_contra far
      have := beyond (Nat.lt_of_not_le far)
      omega
  · -- On a tie the even one of two neighbours is taken, and `N` is even.
    have next : N ≤ roundEven n d ↔ N ≤ n / d + 1 := by
      rw [roundEven, if_neg less]
      split <;> omega
    rw [next]
    constructor
    · intro h
      have := upTo h
      rw [Nat.succ_mul] at this
      omega
    · intro h
      by_contra far
      have := beyond (Nat.lt_of_not_le far)
      rw [Nat.succ_mul] at this
      omega

end Whole

/-! ## Shifting bits out -/

section Shift

variable (n : Nat) {d : Nat}

/-- The whole part of a quotient, with the two bits that are kept of the rest. -/
def extended (n d : Nat) : ExtendedMantissa :=
  .ofMantissaAndAccuracy (n / d) (accuracyOfFraction (n % d) d)

theorem extended_one : extended n 1 = ⟨n, false, false⟩ := by
  unfold extended
  rw [Nat.div_one, Nat.mod_one]
  rfl

theorem mantissa_extended (d : Nat) : (extended n d).mantissa = n / d := by
  unfold extended
  cases accuracyOfFraction (n % d) d with
  | exact => rfl
  | inexact order => cases order <;> rfl

theorem accuracy_extended (d : Nat) :
    (extended n d).accuracy = accuracyOfFraction (n % d) d := by
  unfold extended
  cases accuracyOfFraction (n % d) d with
  | exact => rfl
  | inexact order => cases order <;> rfl

theorem extended_eq (pos : 0 < d) :
    extended n d =
      ⟨n / d, decide (d ≤ 2 * (n % d)), decide (n % d ≠ 0 ∧ d ≠ 2 * (n % d))⟩ := by
  unfold extended accuracyOfFraction
  by_cases whole : n % d = 0
  · rw [if_pos whole, whole, decide_eq_false (by omega), decide_eq_false (by omega)]
    rfl
  · rw [if_neg whole]
    rcases Nat.lt_trichotomy (2 * (n % d)) d with less | tie | more
    · rw [Nat.compare_eq_lt.mpr less, decide_eq_false (by omega), decide_eq_true (by omega)]
      rfl
    · rw [Nat.compare_eq_eq.mpr tie, decide_eq_true (by omega), decide_eq_false (by omega)]
      rfl
    · rw [Nat.compare_eq_gt.mpr more, decide_eq_true (by omega), decide_eq_true (by omega)]
      rfl

/-- A shift by one bit halves the quotient. -/
theorem shiftRightOne_extended (pos : 0 < d) :
    (extended n d).shiftRightOne = extended n (d * 2) := by
  have rest : n % (d * 2) = n % d + d * (n / d % 2) := Nat.mod_mul
  have below : n % d < d := Nat.mod_lt n pos
  rw [extended_eq n pos, extended_eq n (Nat.mul_pos pos Nat.two_pos),
    ExtendedMantissa.shiftRightOne, Nat.div_div_eq_div_mul, rest]
  -- The bit that goes out is kept as the first one of the rest.
  rcases Nat.mod_two_eq_zero_or_one (n / d) with bit | bit
  · rw [bit, Nat.mul_zero, Nat.add_zero]
    congr 1
    · rw [decide_eq_false (by omega)]
      rfl
    · rw [← Bool.decide_or, decide_eq_decide]
      omega
  · rw [bit, Nat.mul_one]
    congr 1
    · rw [decide_eq_true (by omega)]
      rfl
    · rw [← Bool.decide_or, decide_eq_decide]
      omega

theorem shiftRight_extended (pos : 0 < d) (k : Nat) :
    extended n d >>> k = extended n (d * 2 ^ k) := by
  induction k with
  | zero =>
      rw [pow_zero, Nat.mul_one]
      rfl
  | succ k ih =>
      show (extended n d >>> k).shiftRightOne = _
      rw [ih, shiftRightOne_extended n (Nat.mul_pos pos (Nat.two_pow_pos k)), Nat.mul_assoc,
        pow_succ]

/-- The bits that are kept tell how to round. -/
theorem roundedMantissa_extended (pos : 0 < d) :
    (extended n d).roundedMantissa = roundEven n d := by
  unfold ExtendedMantissa.roundedMantissa roundEven
  rw [accuracy_extended, mantissa_extended]
  unfold accuracyOfFraction
  dsimp only
  by_cases whole : n % d = 0
  · rw [if_pos whole, whole, if_pos (by omega)]
    rfl
  · rw [if_neg whole]
    rcases Nat.lt_trichotomy (2 * (n % d)) d with less | tie | more
    · rw [Nat.compare_eq_lt.mpr less, if_pos less]
      rfl
    · rw [Nat.compare_eq_eq.mpr tie, if_neg (by omega), if_neg (by omega)]
      rfl
    · rw [Nat.compare_eq_gt.mpr more, if_neg (by omega), if_pos more]
      rfl

end Shift

end PrintPath.Number
