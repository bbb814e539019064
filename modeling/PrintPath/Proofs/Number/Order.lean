import Mathlib
import PrintPath.Proofs.Number.Arithmetic

/-!
# The order of doubles

Doubles are compared by their signs, then by their exponents, and only then by their
significands. Since the significand of a greater exponent has all its bits, this is
the order of the numbers that they stand for.
-/

namespace PrintPath.Number

open Float.Model Float.Model.UnpackedFloat

/-! ## Parts in order -/

section Parts

variable {m m' : Nat} {q q' : Int}

theorem mul_zpow_lt_mul_zpow (h : InRange m q) (h' : InRange m' q') (lt : q < q') :
    (m : ℚ) * 2 ^ q < m' * 2 ^ q' := by
  have short : (m : ℚ) < 2 ^ (53 : ℤ) := by exact_mod_cast h.fits
  have long : (2 : ℚ) ^ (52 : ℤ) ≤ m' := by
    have full := h'.full.resolve_right (by have := h.least; omega)
    exact_mod_cast full
  calc (m : ℚ) * 2 ^ q
      < 2 ^ (53 : ℤ) * 2 ^ q := mul_lt_mul_of_pos_right short (zpow_pos two_pos q)
    _ = 2 ^ (53 + q) := (zpow_add₀ two_ne_zero _ _).symm
    _ ≤ 2 ^ (52 + q') := zpow_le_zpow_right₀ one_le_two (by omega)
    _ = 2 ^ (52 : ℤ) * 2 ^ q' := zpow_add₀ two_ne_zero _ _
    _ ≤ m' * 2 ^ q' := mul_le_mul_of_nonneg_right long (zpow_pos two_pos q').le

/-- Exponents and significands in this order compare as the products do. -/
theorem compare_parts (h : InRange m q) (h' : InRange m' q') :
    (compare q q').then (compare m m') = compare ((m : ℚ) * 2 ^ q) (m' * 2 ^ q') := by
  rcases Int.lt_trichotomy q q' with lt | rfl | gt
  · rw [Int.compare_eq_lt.mpr lt, compare_lt_iff_lt.mpr (mul_zpow_lt_mul_zpow h h' lt)]
    rfl
  · have power : (0 : ℚ) < 2 ^ q := zpow_pos two_pos q
    rw [compare_eq_iff_eq.mpr rfl]
    rcases Nat.lt_trichotomy m m' with lt | rfl | gt
    · have less : (m : ℚ) * 2 ^ q < m' * 2 ^ q :=
        mul_lt_mul_of_pos_right (by exact_mod_cast lt) power
      rw [Nat.compare_eq_lt.mpr lt, compare_lt_iff_lt.mpr less]
      rfl
    · rw [compare_eq_iff_eq.mpr rfl, compare_eq_iff_eq.mpr rfl]
      rfl
    · have more : (m' : ℚ) * 2 ^ q < m * 2 ^ q :=
        mul_lt_mul_of_pos_right (by exact_mod_cast gt) power
      rw [Nat.compare_eq_gt.mpr gt, compare_gt_iff_gt.mpr more]
      rfl
  · rw [Int.compare_eq_gt.mpr gt, compare_gt_iff_gt.mpr (mul_zpow_lt_mul_zpow h' h gt)]
    rfl

theorem compare_neg_neg (a b : ℚ) : compare (-a) (-b) = (compare a b).swap := by
  rcases lt_trichotomy a b with lt | rfl | gt
  · rw [compare_lt_iff_lt.mpr lt, compare_gt_iff_gt.mpr (neg_lt_neg lt)]
    rfl
  · rw [compare_eq_iff_eq.mpr rfl, compare_eq_iff_eq.mpr rfl]
    rfl
  · rw [compare_gt_iff_gt.mpr gt, compare_lt_iff_lt.mpr (neg_lt_neg gt)]
    rfl

end Parts

/-! ## Doubles in order -/

section Order

variable {x y : Float} (hx : x.isFinite) (hy : y.isFinite)

include hx hy

/-- Finite doubles compare as the numbers that they stand for. -/
theorem compare_unpack :
    x.toModel.unpack.compare y.toModel.unpack = some (compare (value x) (value y)) := by
  have positive {m : Nat} (pos : 0 < m) (q : Int) : (0 : ℚ) < m * 2 ^ q :=
    mul_pos (Nat.cast_pos.mpr pos) (zpow_pos two_pos q)
  rcases unpack_of_isFinite hx with ⟨s, ux, vx⟩ | ⟨s, m, q, pos, ux, hm, vx⟩
  · rcases unpack_of_isFinite hy with ⟨s', uy, vy⟩ | ⟨s', m', q', pos', uy, hm', vy⟩
    · rw [ux, uy, vx, vy, compare_eq_iff_eq.mpr rfl]
      rfl
    · rw [ux, uy, vx, vy, cast_apply]
      cases s' with
      | positive => exact congrArg some (compare_lt_iff_lt.mpr (positive pos' q')).symm
      | negative =>
          exact congrArg some (compare_gt_iff_gt.mpr (neg_lt_zero.mpr (positive pos' q'))).symm
  · rcases unpack_of_isFinite hy with ⟨s', uy, vy⟩ | ⟨s', m', q', pos', uy, hm', vy⟩
    · rw [ux, uy, vx, vy, cast_apply]
      cases s with
      | positive => exact congrArg some (compare_gt_iff_gt.mpr (positive pos q)).symm
      | negative =>
          exact congrArg some (compare_lt_iff_lt.mpr (neg_lt_zero.mpr (positive pos q))).symm
    · rw [ux, uy, vx, vy, cast_apply, cast_apply]
      have below : -((m : ℚ) * 2 ^ q) < m' * 2 ^ q' :=
        (neg_lt_zero.mpr (positive pos q)).trans (positive pos' q')
      have above : -((m' : ℚ) * 2 ^ q') < m * 2 ^ q :=
        (neg_lt_zero.mpr (positive pos' q')).trans (positive pos q)
      cases s with
      | positive =>
          cases s' with
          | positive => exact congrArg some (compare_parts hm hm')
          | negative => exact congrArg some (compare_gt_iff_gt.mpr above).symm
      | negative =>
          cases s' with
          | positive => exact congrArg some (compare_lt_iff_lt.mpr below).symm
          | negative =>
              refine congrArg some ?_
              rw [compare_parts hm hm']
              exact (compare_neg_neg _ _).symm

theorem lt_iff_value_lt : x < y ↔ value x < value y := by
  have model : x < y ↔ decide (x.toModel < y.toModel) = true := Iff.rfl
  rw [model, decide_eq_true_iff]
  show (x.toModel.unpack.compare y.toModel.unpack == some .lt) = true ↔ _
  rw [compare_unpack hx hy, beq_iff_eq, Option.some_inj, compare_lt_iff_lt]

theorem le_iff_value_le : x ≤ y ↔ value x ≤ value y := by
  have model : x ≤ y ↔ decide (x.toModel ≤ y.toModel) = true := Iff.rfl
  rw [model, decide_eq_true_iff]
  show (x.toModel.unpack.compare y.toModel.unpack).any (·.isLE) = true ↔ _
  rw [compare_unpack hx hy, Option.any_some, Ordering.isLE_iff_ne_gt]
  exact compare_le_iff_le

theorem beq_iff_value_eq : (x == y) = true ↔ value x = value y := by
  show (x.toModel.unpack.compare y.toModel.unpack == some .eq) = true ↔ _
  rw [compare_unpack hx hy, beq_iff_eq, Option.some_inj, compare_eq_iff_eq]

end Order

/-- No finite double is greater than that with all bits in its significand and the
greatest exponent. -/
theorem abs_value_le {x : Float} (hx : x.isFinite) :
    |value x| ≤ (2 ^ 53 - 1) * 2 ^ (971 : ℤ) := by
  obtain ⟨negative, m, q, parted⟩ := exists_parts_of_isFinite hx
  have range := inRange_of_parts parted
  have short : (m : ℚ) ≤ 2 ^ 53 - 1 := by
    rw [le_sub_iff_add_le]
    exact_mod_cast range.fits
  rw [value_of_parts parted, abs_signed, abs_of_nonneg (by positivity)]
  exact mul_le_mul short (zpow_le_zpow_right₀ one_le_two range.most) (zpow_pos two_pos q).le
    (by norm_num)

end PrintPath.Number
