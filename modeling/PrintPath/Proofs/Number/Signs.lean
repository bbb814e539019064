import Mathlib
import PrintPath.Proofs.Number.Closest
import PrintPath.Proofs.Number.Order
import PrintPath.Proofs.Number.Whole

/-!
# Signs, and order with the infinities

A number beyond the doubles is rounded to the infinity of its sign, and so rounding
keeps the order of all numbers. It keeps their signs as well, unless a number is so
small that it is rounded to zero. The difference of two doubles never is, since all
doubles are multiples of the least one.
-/

namespace PrintPath.Number

open Float.Model Float.Model.UnpackedFloat

/-! ## The infinities -/

/-- The double beyond all finite ones. -/
def infinity : Float :=
  Float.ofBits 0x7ff0000000000000

theorem unpack_infinity : infinity.toModel.unpack = .infinity .positive :=
  unpack_of_parts (by decide +kernel)

theorem unpack_neg_infinity : (-infinity).toModel.unpack = .infinity .negative :=
  unpack_of_parts (by decide +kernel)

theorem not_isFinite_infinity : infinity.isFinite = false := by
  show infinity.toModel.unpack.isFinite = false
  rw [unpack_infinity]
  rfl

theorem unpack_zero : (0 : Float).toModel.unpack = .zero .positive :=
  unpack_of_parts (by decide +kernel)

theorem value_zero : value 0 = 0 :=
  value_of_zero unpack_zero

theorem isFinite_zero : (0 : Float).isFinite = true := by
  show (0 : Float).toModel.unpack.isFinite = true
  rw [unpack_zero]
  rfl

theorem infinite_or_finite {x : Float} (defined : x.isNaN = false) :
    x = infinity ∨ x = -infinity ∨ x.isFinite = true := by
  cases parted : parts x with
  | nan =>
      rw [isNaN_of_parts parted] at defined
      cases defined
  | infinity negative =>
      obtain rfl := eq_of_parts_infinity parted
      cases negative with
      | false => exact Or.inl rfl
      | true => exact Or.inr (Or.inl rfl)
  | finite negative m q => exact Or.inr (Or.inr (isFinite_of_parts parted))

/-! ## Comparison -/

section Comparison

variable {x y : Float}

theorem le_iff_unpack_le :
    x ≤ y ↔ (x.toModel.unpack.compare y.toModel.unpack).any (·.isLE) = true := by
  have model : x ≤ y ↔ decide (x.toModel ≤ y.toModel) = true := Iff.rfl
  rw [model, decide_eq_true_iff]
  rfl

theorem lt_iff_unpack_lt :
    x < y ↔ x.toModel.unpack.compare y.toModel.unpack = some .lt := by
  have model : x < y ↔ decide (x.toModel < y.toModel) = true := Iff.rfl
  rw [model, decide_eq_true_iff, ← beq_iff_eq]
  rfl

theorem le_of_less (h : x < y) : x ≤ y := by
  rw [le_iff_unpack_le, lt_iff_unpack_lt.mp h]
  rfl

/-- An undefined double compares with none. -/
theorem defined_of_le (h : x ≤ y) : x.isNaN = false ∧ y.isNaN = false := by
  rw [le_iff_unpack_le] at h
  show x.toModel.unpack.isNaN = false ∧ y.toModel.unpack.isNaN = false
  revert h
  cases x.toModel.unpack with
  | notANumber => exact nofun
  | infinity s => cases y.toModel.unpack <;> simp [UnpackedFloat.compare, UnpackedFloat.isNaN]
  | zero s => cases y.toModel.unpack <;> simp [UnpackedFloat.compare, UnpackedFloat.isNaN]
  | finite s m q pos => cases y.toModel.unpack <;> simp [UnpackedFloat.compare, UnpackedFloat.isNaN]

theorem le_infinity (defined : x.isNaN = false) : x ≤ infinity := by
  have number : x.toModel.unpack.isNaN = false := defined
  rw [le_iff_unpack_le, unpack_infinity]
  revert number
  cases x.toModel.unpack with
  | notANumber => exact nofun
  | infinity s => cases s <;> exact fun _ => rfl
  | zero s => exact fun _ => rfl
  | finite s m q pos => exact fun _ => rfl

theorem neg_infinity_le (defined : x.isNaN = false) : -infinity ≤ x := by
  have number : x.toModel.unpack.isNaN = false := defined
  rw [le_iff_unpack_le, unpack_neg_infinity]
  revert number
  cases x.toModel.unpack with
  | notANumber => exact nofun
  | infinity s => cases s <;> exact fun _ => rfl
  | zero s => exact fun _ => rfl
  | finite s m q pos => exact fun _ => rfl

theorem infinity_pos : 0 < infinity := by
  rw [lt_iff_unpack_lt, unpack_zero, unpack_infinity]
  rfl

theorem neg_infinity_neg : -infinity < 0 := by
  rw [lt_iff_unpack_lt, unpack_zero, unpack_neg_infinity]
  rfl

theorem not_neg_of_pos (pos : 0 < x) : ¬ x < 0 := by
  rw [lt_iff_unpack_lt, unpack_zero] at *
  revert pos
  cases x.toModel.unpack with
  | notANumber => exact nofun
  | infinity s => cases s <;> exact nofun
  | zero s => exact nofun
  | finite s m q pos => cases s <;> exact nofun

end Comparison

/-! ## A sum that is not finite -/

/-- A finite double makes no difference to one that is not. -/
theorem add_of_not_finite {x y : Float} (hx : x.isFinite) (great : y.isFinite = false) :
    x + y = y := by
  have number : y.toModel.unpack.isFinite = false := great
  have alone : UnpackedFloat.add .binary64 x.toModel.unpack y.toModel.unpack =
      y.toModel.unpack := by
    revert number
    rcases unpack_of_isFinite hx with ⟨s, ux, -⟩ | ⟨s, m, q, pos, ux, -⟩ <;> rw [ux] <;>
      cases y.toModel.unpack with
      | notANumber => exact fun _ => rfl
      | infinity s' => exact fun _ => rfl
      | zero s' => exact nofun
      | finite s' m' q' pos' => exact nofun
  rw [add_eq_pack, alone, ofModel_pack_unpack]

theorem isFinite_of_isFinite_add {x y : Float} (hx : x.isFinite) (sum : (x + y).isFinite) :
    y.isFinite = true := by
  by_contra great
  rw [add_of_not_finite hx (Bool.eq_false_iff.mpr great)] at sum
  exact great sum

/-! ## Rounding keeps the order -/

theorem rounds_zero_value : Rounds 0 0 := by
  have rounded := rounds_value isFinite_zero
  rwa [value_zero] at rounded

namespace Rounds

variable {v w : ℚ} {x y : Float}

/-- A number beyond the doubles is rounded to the infinity of its sign. -/
theorem eq_infinity (h : Rounds v x) (great : ¬ x.isFinite = true) :
    x = infinity ∧ overflow ≤ v ∨ x = -infinity ∧ v ≤ -overflow := by
  cases h with
  | @intro negative n d pos =>
      rw [isFinite_withSign] at great
      have word := mt (isFinite_nearest_iff_lt n d).mpr great
      have beyond := mt (isFinite_nearest_iff n pos).mpr great
      have infinite : nearest n d = infinity := by
        rw [nearest, (nearestWord_le n d).antisymm (Nat.le_of_not_lt word)]
        rfl
      rw [not_lt] at beyond
      rw [infinite]
      cases negative with
      | false => exact Or.inl ⟨rfl, beyond⟩
      | true => exact Or.inr ⟨rfl, neg_le_neg beyond⟩

/-- **Rounding keeps the order**, also where it leads beyond the doubles. -/
theorem le (h : Rounds v x) (h' : Rounds w y) (le : v ≤ w) : x ≤ y := by
  by_cases hx : x.isFinite = true
  · have small := h.isFinite_iff.mp hx
    by_cases hy : y.isFinite = true
    · have small' := h'.isFinite_iff.mp hy
      rw [le_iff_value_le hx hy]
      rcases le.eq_or_lt with rfl | lt
      · exact (h.value_eq h').le
      · exact (h.closest small).mono (h'.closest small') lt
    · rcases h'.eq_infinity hy with ⟨rfl, -⟩ | ⟨-, low⟩
      · exact le_infinity h.isNaN
      · linarith [(abs_lt.mp small).1]
  · rcases h.eq_infinity hx with ⟨rfl, high⟩ | ⟨rfl, -⟩
    · have hy : ¬ y.isFinite = true := by
        rw [h'.isFinite_iff, not_lt]
        exact (high.trans le).trans (le_abs_self w)
      rcases h'.eq_infinity hy with ⟨rfl, -⟩ | ⟨-, low⟩
      · exact le_infinity h.isNaN
      · linarith [overflow_pos]
    · exact neg_infinity_le h'.isNaN

theorem nonneg (h : Rounds v x) (nonneg : 0 ≤ v) : 0 ≤ x :=
  rounds_zero_value.le h nonneg

end Rounds

/-! ## Rounding keeps the sign -/

/-- A number that is zero or no smaller than the least double. -/
def Coarse (v : ℚ) : Prop :=
  v = 0 ∨ (2 : ℚ) ^ (-1074 : ℤ) ≤ |v|

theorem Coarse.neg {v : ℚ} (h : Coarse v) : Coarse (-v) := by
  rwa [Coarse, neg_eq_zero, abs_neg]

theorem Coarse.mul {v k : ℚ} (h : Coarse v) (one : 1 ≤ k) : Coarse (v * k) := by
  rcases h with rfl | large
  · exact Or.inl (zero_mul k)
  · right
    rw [abs_mul, abs_of_pos (one_pos.trans_le one)]
    exact large.trans (le_mul_of_one_le_right (abs_nonneg v) one)

/-- Multiples of the least double are coarse. -/
theorem coarse_mul_zpow (k : ℤ) : Coarse (k * 2 ^ (-1074 : ℤ)) := by
  rcases eq_or_ne k 0 with rfl | nonzero
  · exact Or.inl (by rw [Int.cast_zero, zero_mul])
  · have one : (1 : ℚ) ≤ |(k : ℚ)| := by exact_mod_cast Int.one_le_abs nonzero
    have power : (0 : ℚ) < 2 ^ (-1074 : ℤ) := zpow_pos two_pos _
    right
    rw [abs_mul, abs_of_pos power]
    exact le_mul_of_one_le_left power.le one

section Coarse

variable {x y : Float}

theorem coarse_value (hx : x.isFinite) : Coarse (value x) := by
  obtain ⟨k, valued⟩ := exists_eq_mul_zpow hx (t := -1074) (Or.inl le_rfl)
  rw [valued]
  exact coarse_mul_zpow k

theorem coarse_add (hx : x.isFinite) (hy : y.isFinite) : Coarse (value x + value y) := by
  obtain ⟨i, valuedX⟩ := exists_eq_mul_zpow hx (t := -1074) (Or.inl le_rfl)
  obtain ⟨j, valuedY⟩ := exists_eq_mul_zpow hy (t := -1074) (Or.inl le_rfl)
  rw [valuedX, valuedY, ← add_mul, ← Int.cast_add]
  exact coarse_mul_zpow (i + j)

theorem coarse_sub (hx : x.isFinite) (hy : y.isFinite) : Coarse (value x - value y) := by
  rw [sub_eq_add_neg, ← value_neg hy]
  exact coarse_add hx ((isFinite_neg y).trans hy)

end Coarse

theorem Closest.value_pos_iff {v : ℚ} {x : Float} (h : Closest v x) (coarse : Coarse v) :
    0 < value x ↔ 0 < v := by
  constructor
  · intro pos
    by_contra low
    have le := h.value_le isFinite_zero (by rw [value_zero]; exact not_lt.mp low)
    rw [value_zero] at le
    exact pos.not_ge le
  · intro pos
    have large := coarse.resolve_left pos.ne'
    rw [abs_of_pos pos] at large
    obtain ⟨y, hy, least⟩ := exists_value_eq_two_zpow (e := -1074) (by decide) (by decide)
    have reach := h.le_value hy (least.le.trans large)
    rw [least] at reach
    exact (zpow_pos two_pos _).trans_le reach

theorem Closest.value_neg_iff {v : ℚ} {x : Float} (h : Closest v x) (coarse : Coarse v) :
    value x < 0 ↔ v < 0 := by
  have opposite := h.neg.value_pos_iff coarse.neg
  rwa [value_neg h.finite, neg_pos, neg_pos] at opposite

namespace Rounds

variable {v : ℚ} {x : Float}

theorem pos_iff (h : Rounds v x) (coarse : Coarse v) : 0 < x ↔ 0 < v := by
  by_cases hx : x.isFinite = true
  · rw [lt_iff_value_lt isFinite_zero hx, value_zero]
    exact (h.closest (h.isFinite_iff.mp hx)).value_pos_iff coarse
  · rcases h.eq_infinity hx with ⟨rfl, high⟩ | ⟨rfl, low⟩
    · exact iff_of_true infinity_pos (overflow_pos.trans_le high)
    · exact iff_of_false (fun pos => not_neg_of_pos pos neg_infinity_neg)
        (by linarith [overflow_pos])

theorem neg_iff (h : Rounds v x) (coarse : Coarse v) : x < 0 ↔ v < 0 := by
  by_cases hx : x.isFinite = true
  · rw [lt_iff_value_lt hx isFinite_zero, value_zero]
    exact (h.closest (h.isFinite_iff.mp hx)).value_neg_iff coarse
  · rcases h.eq_infinity hx with ⟨rfl, high⟩ | ⟨rfl, low⟩
    · exact iff_of_false (not_neg_of_pos infinity_pos) (by linarith [overflow_pos])
    · exact iff_of_true neg_infinity_neg (by linarith [overflow_pos])

end Rounds

section Difference

variable {x y : Float} (hx : x.isFinite) (hy : y.isFinite)

include hx hy

/-- A difference has the sign of the exact one, however small that is. -/
theorem sub_pos_iff : 0 < x - y ↔ value y < value x :=
  ((rounds_sub hx hy).pos_iff (coarse_sub hx hy)).trans sub_pos

theorem sub_neg_iff : x - y < 0 ↔ value x < value y :=
  ((rounds_sub hx hy).neg_iff (coarse_sub hx hy)).trans sub_neg

end Difference

end PrintPath.Number
