import Mathlib
import PrintPath.Proofs.Number.Arithmetic

/-!
# The closest double

A number is rounded to a finite double to which none is closer. That is all one has
to know in order to bound its error, to compare it with other doubles, and to see
that larger numbers are not rounded to smaller doubles.
-/

namespace PrintPath.Number

/-! ## Multiples of a power of two -/

theorem abs_roundEven_sub_le (n : Nat) {d : Nat} (pos : 0 < d) :
    |(roundEven n d : ℚ) - n / d| ≤ 1 / 2 := by
  have positive : (0 : ℚ) < d := Nat.cast_pos.mpr pos
  have division : d * (n / d) + n % d = n := Nat.div_add_mod n d
  have remainder : n % d < d := Nat.mod_lt n pos
  have around : 2 * (d * roundEven n d) ≤ 2 * n + d ∧ 2 * n ≤ 2 * (d * roundEven n d) + d := by
    unfold roundEven
    dsimp only
    split
    · omega
    · split
      · rw [Nat.mul_add]
        omega
      · have bit : d * (n / d % 2) ≤ d * 1 := Nat.mul_le_mul_left d (by omega)
        rw [Nat.mul_add]
        omega
  have low : (2 : ℚ) * (d * roundEven n d) ≤ 2 * n + d := by exact_mod_cast around.1
  have high : (2 : ℚ) * n ≤ 2 * (d * roundEven n d) + d := by exact_mod_cast around.2
  rw [abs_le, neg_le_sub_iff_le_add, sub_le_iff_le_add, div_le_iff₀ positive]
  constructor
  · linarith
  · rw [← sub_le_iff_le_add', le_div_iff₀ positive]
    linarith

/-- A whole number that is off by a half at most is off by no more than any other. -/
theorem abs_sub_le_of_half {k : ℤ} {a : ℚ} (near : |(k : ℚ) - a| ≤ 1 / 2) (i : ℤ) :
    |(k : ℚ) - a| ≤ |(i : ℚ) - a| := by
  rcases eq_or_ne k i with rfl | other
  · exact le_rfl
  · have apart : (1 : ℚ) ≤ |(k : ℚ) - i| := by
      have := Int.one_le_abs (sub_ne_zero.mpr other)
      exact_mod_cast this
    have triangle : |(k : ℚ) - i| ≤ |(k : ℚ) - a| + |(i : ℚ) - a| := by
      rw [abs_sub_comm (i : ℚ) a]
      exact abs_sub_le _ _ _
    linarith

theorem abs_mul_zpow_sub (a v : ℚ) (t : ℤ) :
    |a * 2 ^ t - v| = |a - v * 2 ^ (-t)| * 2 ^ t := by
  have power : (0 : ℚ) < 2 ^ t := zpow_pos two_pos t
  rw [← abs_of_pos power, ← abs_mul, abs_of_pos power, sub_mul, mul_assoc, ← zpow_add₀ two_ne_zero,
    neg_add_cancel, zpow_zero, mul_one]

theorem abs_value {x : Float} {negative : Bool} {m : Nat} {q : Int}
    (h : parts x = .finite negative m q) : |value x| = m * 2 ^ q := by
  rw [value_of_parts h, abs_signed, abs_of_nonneg (by positivity)]

/-- A double is a multiple of a power of two that is small enough. -/
theorem exists_eq_mul_zpow {x : Float} (hx : x.isFinite) {t : ℤ}
    (fine : t ≤ -1074 ∨ (2 : ℚ) ^ (52 + t) ≤ |value x|) : ∃ k : ℤ, value x = k * 2 ^ t := by
  obtain ⟨negative, m, q, parted⟩ := exists_parts_of_isFinite hx
  have range := inRange_of_parts parted
  have le : t ≤ q := by
    rcases fine with least | large
    · exact least.trans range.least
    · rw [abs_value parted] at large
      have precise : (m : ℚ) < 2 ^ (53 : ℤ) := by exact_mod_cast range.fits
      have below : (2 : ℚ) ^ (52 + t) < 2 ^ (53 + q) := by
        calc (2 : ℚ) ^ (52 + t)
            ≤ m * 2 ^ q := large
          _ < 2 ^ (53 : ℤ) * 2 ^ q := mul_lt_mul_of_pos_right precise (zpow_pos two_pos q)
          _ = 2 ^ (53 + q) := (zpow_add₀ two_ne_zero _ _).symm
      have := (zpow_lt_zpow_iff_right₀ one_lt_two).mp below
      omega
  refine ⟨(signOf negative).apply (m <<< (q - t).toNat : Nat), ?_⟩
  rw [apply_shiftLeft _ m le, cast_apply, value_of_parts parted]
  cases negative <;> rfl

/-! ## The nearest double -/

theorem value_ofProduct {m : Nat} {q : Int} (h : InRange m q) : value (ofProduct m q) = m * 2 ^ q :=
  value_of_parts (parts_ofProduct h)

theorem isFinite_ofProduct {m : Nat} {q : Int} (h : InRange m q) :
    (ofProduct m q).isFinite = true :=
  isFinite_of_parts (parts_ofProduct h)

theorem value_ofWord {t : Int} {r : Nat} (most : r ≤ 2 ^ 53) (least : -1074 ≤ t)
    (full : 2 ^ 52 ≤ r ∨ t = -1074) (finite : (ofWord t r).isFinite) :
    value (ofWord t r) = r * 2 ^ t := by
  have room : ¬ (fieldSize - 1) * leadingBit ≤ (t + 1074).toNat * leadingBit + r :=
    fun great => not_isFinite_ofWord great finite
  unfold fieldSize leadingBit at room
  rcases most.lt_or_eq with short | rfl
  · have range : InRange r t := ⟨short, least, by omega, full⟩
    rw [← ofProduct_eq_ofWord range, value_ofProduct range]
  · have range : InRange (2 ^ 52) (t + 1) := ⟨by decide, by omega, by omega, Or.inl le_rfl⟩
    rw [ofWord_carry least, ← ofProduct_eq_ofWord range, value_ofProduct range, add_comm t,
      zpow_add₀ two_ne_zero]
    push_cast
    ring

/-- A finite double that is as close to a number as any. -/
structure Closest (v : ℚ) (x : Float) : Prop where
  finite : x.isFinite
  least : ∀ y : Float, y.isFinite → |value x - v| ≤ |value y - v|

section Nearest

variable {n d : Nat} (posN : 0 < n) (posD : 0 < d)

include posN posD

theorem value_nearest (finite : (nearest n d).isFinite) :
    value (nearest n d) = quotientSignificand n d * 2 ^ quotientSpacing n d := by
  have least : -1074 ≤ quotientSpacing n d := le_max_left _ _
  have normal := le_quotientSignificand posN posD
  rw [nearest_eq_ofWord posN] at finite ⊢
  refine value_ofWord (quotientSignificand_le posN posD) least ?_ finite
  unfold quotientSpacing at *
  omega

omit posN in
/-- The significand is the quotient in steps of the spacing, up to half a step. -/
theorem abs_quotientSignificand_sub_le :
    |(quotientSignificand n d : ℚ) - n / d * 2 ^ (-quotientSpacing n d)| ≤ 1 / 2 := by
  have pos : 0 < d <<< (quotientSpacing n d).toNat := Nat.shiftLeft_pos_iff.mpr posD
  have half := abs_roundEven_sub_le (n <<< (-quotientSpacing n d).toNat) pos
  have quotient := cast_shifted n d (-quotientSpacing n d)
  rw [neg_neg] at quotient
  rwa [quotient] at half

end Nearest

/-- No double is closer to a quotient than the one that it is rounded to. -/
theorem closest_nearest (n : Nat) {d : Nat} (posD : 0 < d) (finite : (nearest n d).isFinite) :
    Closest (n / d) (nearest n d) := by
  refine ⟨finite, fun y hy => ?_⟩
  rcases Nat.eq_zero_or_pos n with rfl | posN
  · have zero : nearest 0 d = nearest 0 1 := nearest_congr posD Nat.one_pos (by simp)
    have none : value (nearest 0 1) = 0 := by decide +kernel
    rw [zero, none, Nat.cast_zero, zero_div, sub_zero, abs_zero]
    exact abs_nonneg _
  have half := abs_quotientSignificand_sub_le (n := n) posD
  have above (normal : -1074 < quotientSpacing n d) :=
    two_zpow_spacing_le_div posN posD (by unfold quotientSpacing at *; omega)
  rw [value_nearest posN posD finite]
  generalize quotientSpacing n d = t at *
  have power : (0 : ℚ) < 2 ^ t := zpow_pos two_pos t
  -- Multiples of the spacing are no closer.
  have multiple (i : ℤ) :
      |(quotientSignificand n d : ℚ) * 2 ^ t - n / d| ≤ |(i : ℚ) * 2 ^ t - n / d| := by
    rw [abs_mul_zpow_sub, abs_mul_zpow_sub]
    exact mul_le_mul_of_nonneg_right
      (abs_sub_le_of_half (k := (quotientSignificand n d : ℤ)) (by exact_mod_cast half) i) power.le
  by_cases fine : t ≤ -1074 ∨ (2 : ℚ) ^ (52 + t) ≤ |value y|
  · obtain ⟨k, valued⟩ := exists_eq_mul_zpow hy fine
    rw [valued]
    exact multiple k
  · -- Other doubles are below a power of two that is a multiple itself.
    rw [not_or, not_le, not_le] at fine
    have edge : (((2 : ℤ) ^ 52 : ℤ) : ℚ) * 2 ^ t = 2 ^ (52 + t) := by
      rw [zpow_add₀ two_ne_zero]
      norm_cast
    have lowest := multiple (2 ^ 52)
    rw [edge] at lowest
    have reach := above fine.1
    have below : value y < 2 ^ (52 + t) := lt_of_abs_lt fine.2
    calc |(quotientSignificand n d : ℚ) * 2 ^ t - n / d|
        ≤ |(2 : ℚ) ^ (52 + t) - n / d| := lowest
      _ = n / d - 2 ^ (52 + t) := by rw [abs_sub_comm, abs_of_nonneg (sub_nonneg.mpr reach)]
      _ ≤ n / d - value y := by linarith
      _ ≤ |value y - n / d| := by
          rw [abs_sub_comm]
          exact le_abs_self _

theorem Closest.neg {v : ℚ} {x : Float} (h : Closest v x) : Closest (-v) (-x) := by
  refine ⟨(isFinite_neg x).trans h.finite, fun y hy => ?_⟩
  have opposite := h.least (-y) ((isFinite_neg y).trans hy)
  rw [value_neg hy] at opposite
  rw [value_neg h.finite]
  calc |-value x - -v|
      = |value x - v| := by rw [neg_sub_neg, abs_sub_comm]
    _ ≤ |-value y - v| := opposite
    _ = |value y - -v| := by rw [← abs_neg, neg_sub, sub_neg_eq_add, sub_neg_eq_add, add_comm]

/-- A number within the doubles is rounded to a double that is as close as any. -/
theorem Rounds.closest {v : ℚ} {x : Float} (h : Rounds v x) (small : |v| < overflow) :
    Closest v x := by
  have finite := h.isFinite_iff.mpr small
  cases h with
  | intro negative n pos =>
      rw [isFinite_withSign] at finite
      have magnitude := closest_nearest n pos finite
      cases negative with
      | false => exact magnitude
      | true => exact magnitude.neg

namespace Closest

variable {v w : ℚ} {x y : Float}

/-- Nothing is rounded that is a double already. -/
theorem value_eq (h : Closest v x) (hy : y.isFinite) (same : value y = v) : value x = v := by
  have none := h.least y hy
  rw [same, sub_self, abs_zero] at none
  exact sub_eq_zero.mp (abs_nonpos_iff.mp none)

/-- Larger numbers are not rounded to smaller doubles. -/
theorem mono (h : Closest v x) (h' : Closest w y) (lt : v < w) : value x ≤ value y := by
  by_contra swapped
  have left := h.least y h'.finite
  have right := h'.least x h.finite
  rw [not_le] at swapped
  -- Otherwise the mean of the two doubles would lie between `w` and `v`.
  rcases abs_cases (value x - v) with ⟨e₁, _⟩ | ⟨e₁, _⟩ <;>
    rcases abs_cases (value y - v) with ⟨e₂, _⟩ | ⟨e₂, _⟩ <;>
    rcases abs_cases (value x - w) with ⟨e₃, _⟩ | ⟨e₃, _⟩ <;>
    rcases abs_cases (value y - w) with ⟨e₄, _⟩ | ⟨e₄, _⟩ <;>
    linarith

theorem of_value (hx : x.isFinite) : Closest (value x) x :=
  ⟨hx, fun y _ => by rw [sub_self, abs_zero]; exact abs_nonneg _⟩

/-- A double that is not below a number is not below its rounding. -/
theorem value_le (h : Closest v x) (hy : y.isFinite) (le : v ≤ value y) : value x ≤ value y := by
  rcases le.eq_or_lt with same | lt
  · exact (h.value_eq hy same.symm).le.trans le
  · exact h.mono (of_value hy) lt

theorem le_value (h : Closest v x) (hy : y.isFinite) (le : value y ≤ v) : value y ≤ value x := by
  rcases le.eq_or_lt with same | lt
  · exact le.trans (h.value_eq hy same).ge
  · exact (of_value hy).mono h lt

end Closest

/-! ## Which numbers are doubles -/

theorem exists_value_eq_nat {m : Nat} {e : ℤ} (short : m < 2 ^ 53) (least : -1074 ≤ e)
    (most : e ≤ 971) : ∃ x : Float, x.isFinite ∧ value x = m * 2 ^ e := by
  rcases Nat.eq_zero_or_pos m with rfl | pos
  · exact ⟨0, by decide +kernel, by rw [Nat.cast_zero, zero_mul]; decide +kernel⟩
  -- The significand is made as long as it can be.
  obtain ⟨k, left⟩ : ∃ k : Nat, (k : ℤ) = min (52 - (m.log2 : ℤ)) (e + 1074) := by
    have bits := log2_lt_of_lt (by decide) short
    exact ⟨(min (52 - (m.log2 : ℤ)) (e + 1074)).toNat, by omega⟩
  have positive : m <<< k ≠ 0 := mt Nat.shiftLeft_eq_zero_iff.mp pos.ne'
  have range : InRange (m <<< k) (e - k) := by
    have bits := log2_shiftLeft pos k
    refine ⟨(Nat.log2_lt positive).mp (by omega), by omega, by omega, ?_⟩
    rw [← Nat.le_log2 positive]
    omega
  refine ⟨ofProduct (m <<< k) (e - k), isFinite_ofProduct range, ?_⟩
  rw [value_ofProduct range, shiftLeft_mul_zpow]

/-- Short multiples of a power of two are doubles. -/
theorem exists_value_eq {k : ℤ} {e : ℤ} (short : k.natAbs < 2 ^ 53) (least : -1074 ≤ e)
    (most : e ≤ 971) : ∃ x : Float, x.isFinite ∧ value x = k * 2 ^ e := by
  obtain ⟨x, hx, valued⟩ := exists_value_eq_nat short least most
  obtain ⟨n, rfl | rfl⟩ := k.eq_nat_or_neg
  · exact ⟨x, hx, valued⟩
  · refine ⟨-x, (isFinite_neg x).trans hx, ?_⟩
    rw [value_neg hx, valued, Int.natAbs_neg, Int.natAbs_natCast, Int.cast_neg, neg_mul]
    rfl

theorem exists_value_eq_of_le {k : ℤ} {e : ℤ} (short : k.natAbs ≤ 2 ^ 53) (least : -1074 ≤ e)
    (most : e ≤ 970) : ∃ x : Float, x.isFinite ∧ value x = k * 2 ^ e := by
  rcases short.lt_or_eq with short | edge
  · exact exists_value_eq short least (by omega)
  · -- A power of two has shorter significands as well.
    obtain ⟨j, rfl⟩ : ∃ j, k = 2 * j := ⟨k / 2, by omega⟩
    obtain ⟨x, hx, valued⟩ := exists_value_eq (k := j) (e := e + 1) (by omega) (by omega) (by omega)
    refine ⟨x, hx, ?_⟩
    rw [valued, zpow_add_one₀ two_ne_zero]
    push_cast
    ring

theorem exists_value_eq_two_zpow {e : ℤ} (least : -1074 ≤ e) (most : e ≤ 971) :
    ∃ x : Float, x.isFinite ∧ value x = 2 ^ e := by
  obtain ⟨x, hx, valued⟩ := exists_value_eq (k := 1) (by decide) least most
  exact ⟨x, hx, by rw [valued, Int.cast_one, one_mul]⟩

section Powers

variable {v : ℚ} {x : Float} (h : Closest v x) {e : ℤ} (least : -1074 ≤ e) (most : e ≤ 971)

include h least most

/-- No rounding goes past a power of two from below. -/
theorem Closest.abs_value_le_two_zpow (small : |v| ≤ 2 ^ e) : |value x| ≤ 2 ^ e := by
  obtain ⟨y, hy, valued⟩ := exists_value_eq_two_zpow least most
  rw [abs_le] at small ⊢
  constructor
  · rw [← valued, ← value_neg hy]
    exact h.le_value ((isFinite_neg y).trans hy) (by rw [value_neg hy, valued]; exact small.1)
  · rw [← valued]
    exact h.value_le hy (by rw [valued]; exact small.2)

/-- No rounding goes past a power of two from above. -/
theorem Closest.two_zpow_le_abs_value (large : (2 : ℚ) ^ e ≤ |v|) : (2 : ℚ) ^ e ≤ |value x| := by
  obtain ⟨y, hy, valued⟩ := exists_value_eq_two_zpow least most
  rw [le_abs'] at large ⊢
  rcases large with below | above
  · left
    rw [← valued, ← value_neg hy]
    exact h.value_le ((isFinite_neg y).trans hy) (by rw [value_neg hy, valued]; exact below)
  · right
    rw [← valued]
    exact h.le_value hy (by rw [valued]; exact above)

end Powers

/-- The error of a rounding is half a unit in the last place at most. -/
theorem Closest.error {v : ℚ} {x : Float} (h : Closest v x) {e : ℤ} (least : -1074 ≤ e)
    (most : e ≤ 970) (small : |v| ≤ 2 ^ (53 + e)) : |value x - v| ≤ 2 ^ e / 2 := by
  have power : (0 : ℚ) < 2 ^ e := zpow_pos two_pos e
  have half : |(round (v * 2 ^ (-e)) : ℚ) - v * 2 ^ (-e)| ≤ 1 / 2 := by
    rw [abs_sub_comm]
    exact abs_sub_round _
  have short : (round (v * 2 ^ (-e))).natAbs ≤ 2 ^ 53 := by
    have scaled : |v * 2 ^ (-e)| ≤ 2 ^ 53 := by
      rw [abs_mul, abs_of_pos (zpow_pos two_pos (-e) : (0 : ℚ) < 2 ^ (-e))]
      calc |v| * 2 ^ (-e)
          ≤ 2 ^ (53 + e) * 2 ^ (-e) :=
            mul_le_mul_of_nonneg_right small (zpow_pos two_pos _).le
        _ = 2 ^ 53 := by
            rw [← zpow_add₀ two_ne_zero, add_neg_cancel_right]
            norm_cast
    have near : (|round (v * 2 ^ (-e))| : ℚ) < 2 ^ 53 + 1 := by
      have triangle := abs_sub_abs_le_abs_sub (round (v * 2 ^ (-e)) : ℚ) (v * 2 ^ (-e))
      linarith
    have whole : |round (v * 2 ^ (-e))| < 2 ^ 53 + 1 := by exact_mod_cast near
    rw [Int.abs_eq_natAbs] at whole
    omega
  obtain ⟨y, hy, valued⟩ := exists_value_eq_of_le short least most
  calc |value x - v|
      ≤ |value y - v| := h.least y hy
    _ = |(round (v * 2 ^ (-e)) : ℚ) - v * 2 ^ (-e)| * 2 ^ e := by rw [valued, abs_mul_zpow_sub]
    _ ≤ 1 / 2 * 2 ^ e := mul_le_mul_of_nonneg_right half power.le
    _ = 2 ^ e / 2 := by ring

/-! ## Equal numbers -/

theorem value_withSign_nearest_congr {a b : Bool} {n d n' d' : Nat} (pos : 0 < d) (pos' : 0 < d')
    (same : signed a ((n : ℚ) / d) = signed b (n' / d')) :
    value (withSign a (nearest n d)) = value (withSign b (nearest n' d')) := by
  have quotients : (n : ℚ) / d = n' / d' := by
    have magnitudes := congrArg abs same
    rwa [abs_signed, abs_signed, abs_of_nonneg (by positivity),
      abs_of_nonneg (by positivity)] at magnitudes
  have doubles : nearest n d = nearest n' d' := by
    rw [div_eq_div_iff (Nat.cast_ne_zero.mpr pos.ne') (Nat.cast_ne_zero.mpr pos'.ne')] at quotients
    exact nearest_congr pos pos' (by exact_mod_cast quotients)
  rw [← quotients] at same
  rw [← doubles]
  rcases Nat.eq_zero_or_pos n with rfl | positive
  · -- The two zeros stand for the same number.
    have zero : nearest 0 d = nearest 0 1 := nearest_congr pos Nat.one_pos (by simp)
    rw [zero]
    cases a <;> cases b <;> decide +kernel
  · have some : (0 : ℚ) < (n : ℚ) / d := by positivity
    have signs : a = b := by
      cases a <;> cases b <;> simp [signed] at same ⊢ <;> linarith
    rw [signs]

/-- Equal numbers are rounded to equal doubles. Only a zero may differ in its sign. -/
theorem Rounds.value_eq {v : ℚ} {x y : Float} (h : Rounds v x) (h' : Rounds v y) :
    value x = value y := by
  cases h with
  | intro a n pos =>
      generalize same : signed a _ = v at h'
      cases h' with
      | intro b n' pos' => exact value_withSign_nearest_congr pos pos' same

/-- The double nearest to a rational number. -/
def nearestRat (v : ℚ) : Float :=
  withSign (decide (v < 0)) (nearest v.num.natAbs v.den)

theorem rounds_nearestRat (v : ℚ) : Rounds v (nearestRat v) := by
  have rounded := Rounds.intro (decide (v < 0)) v.num.natAbs v.den_pos
  have magnitude : (v.num.natAbs : ℚ) / v.den = |v| := by
    rw [Nat.cast_natAbs, Int.cast_abs, ← Nat.abs_cast v.den, ← abs_div, Rat.num_div_den]
  have same : signed (decide (v < 0)) |v| = v := by
    rcases lt_or_ge v 0 with negative | positive
    · rw [decide_eq_true negative, abs_of_neg negative]
      exact neg_neg v
    · rw [decide_eq_false positive.not_gt, abs_of_nonneg positive]
      rfl
  rw [magnitude, same] at rounded
  exact rounded

theorem nearestInt_eq (i : ℤ) : nearestInt i = nearestRat i := by
  rw [nearestInt, nearestRat, Rat.num_intCast, Rat.den_intCast]
  congr 1
  rw [decide_eq_decide]
  exact Int.cast_lt_zero.symm

end PrintPath.Number
