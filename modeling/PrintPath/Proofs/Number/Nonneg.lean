import Mathlib
import PrintPath.Proofs.Number.Signs

/-!
# Doubles that are not negative

Sums, squares and roots of doubles that are not negative are not negative either, and
so they are never undefined. Such sums only grow. They may be infinite.
-/

namespace PrintPath.Number

open Float.Model Float.Model.UnpackedFloat

/-! ## Addition with the infinities -/

theorem plus_comm (x y : Float) : x + y = y + x := by
  rw [add_eq_pack, add_eq_pack]
  congr 2
  cases x.toModel.unpack with
  | notANumber => cases y.toModel.unpack <;> rfl
  | infinity s =>
      cases y.toModel.unpack with
      | infinity s' => cases s <;> cases s' <;> rfl
      | notANumber => rfl
      | zero s' => rfl
      | finite s' m' q' pos' => rfl
  | zero s =>
      cases y.toModel.unpack with
      | zero s' => cases s <;> cases s' <;> rfl
      | notANumber => rfl
      | infinity s' => rfl
      | finite s' m' q' pos' => rfl
  | finite s m q pos =>
      cases y.toModel.unpack with
      | finite s' m' q' pos' =>
          unfold UnpackedFloat.add
          dsimp only
          rw [min_comm, Int.add_comm]
      | notANumber => rfl
      | infinity s' => rfl
      | zero s' => rfl

theorem ofModel_pack_infinity : Float.ofModel (.pack (.infinity .positive)) = infinity := by
  rw [← unpack_infinity, ofModel_pack_unpack]

theorem nonneg_iff {x : Float} : 0 ≤ x ↔ x = infinity ∨ x.isFinite = true ∧ 0 ≤ value x := by
  constructor
  · intro h
    rcases infinite_or_finite (defined_of_le h).2 with rfl | rfl | finite
    · exact Or.inl rfl
    · rw [le_iff_unpack_le, unpack_zero, unpack_neg_infinity] at h
      cases h
    · rw [le_iff_value_le isFinite_zero finite, value_zero] at h
      exact Or.inr ⟨finite, h⟩
  · rintro (rfl | ⟨finite, h⟩)
    · exact le_of_less infinity_pos
    · rwa [le_iff_value_le isFinite_zero finite, value_zero]

/-- A double that is not negative is defined, and so it compares with itself. -/
theorem le_self {x : Float} (h : 0 ≤ x) : x ≤ x := by
  rcases nonneg_iff.mp h with rfl | ⟨finite, -⟩
  · exact le_infinity (defined_of_le h).2
  · exact (le_iff_value_le finite finite).mpr le_rfl

section Sums

variable {x y : Float} (hx : 0 ≤ x) (hy : 0 ≤ y)

include hx in
theorem infinity_add : infinity + x = infinity := by
  rcases nonneg_iff.mp hx with rfl | ⟨finite, -⟩
  · rw [add_eq_pack, unpack_infinity]
    exact ofModel_pack_infinity
  · rw [plus_comm]
    exact add_of_not_finite finite not_isFinite_infinity

include hx in
theorem add_infinity : x + infinity = infinity := by
  rw [plus_comm, infinity_add hx]

include hx hy

/-- A sum does not fall below its first addend. -/
theorem le_plus : x ≤ x + y := by
  rcases nonneg_iff.mp hx with rfl | ⟨finite, -⟩
  · rw [infinity_add hy]
    exact le_self hx
  · rcases nonneg_iff.mp hy with rfl | ⟨finite', above⟩
    · rw [add_infinity hx]
      exact le_infinity (defined_of_le hx).2
    · exact (rounds_value finite).le (rounds_add finite finite') (le_add_of_nonneg_right above)

theorem nonneg_plus : 0 ≤ x + y := by
  rcases nonneg_iff.mp hx with rfl | ⟨finite, above⟩
  · rwa [infinity_add hy]
  · rcases nonneg_iff.mp hy with rfl | ⟨finite', above'⟩
    · rwa [add_infinity hx]
    · exact (rounds_add finite finite').nonneg (add_nonneg above above')

/-- A sum does not fall below its second addend either. -/
theorem le_plus' : y ≤ x + y := by
  rw [plus_comm]
  exact le_plus hy hx

end Sums

/-! ## Comparison -/

section Comparison

variable {x y : Float} (hx : 0 ≤ x) (hy : 0 ≤ y) (le : x ≤ y)

include hx le in
/-- What is not above a finite double, and not negative, is finite. -/
theorem isFinite_of_le (finite : y.isFinite) : x.isFinite = true := by
  rcases nonneg_iff.mp hx with rfl | ⟨finite', -⟩
  · rw [le_iff_unpack_le, unpack_infinity] at le
    rcases unpack_of_isFinite finite with ⟨s, uy, -⟩ | ⟨s, m, q, pos, uy, -⟩ <;> rw [uy] at le <;>
      cases le
  · exact finite'

include hy le in
theorem pos_of_pos_of_le (pos : 0 < x) : 0 < y := by
  rcases nonneg_iff.mp hy with rfl | ⟨finite, -⟩
  · exact infinity_pos
  · have finite' := isFinite_of_le (le_of_less pos) le finite
    rw [lt_iff_value_lt isFinite_zero finite'] at pos
    rw [le_iff_value_le finite' finite] at le
    rw [lt_iff_value_lt isFinite_zero finite]
    exact pos.trans_le le

end Comparison

theorem pos_plus {x y : Float} (hx : 0 ≤ x) (pos : 0 < y) : 0 < x + y :=
  pos_of_pos_of_le (nonneg_plus hx (le_of_less pos)) (le_plus' hx (le_of_less pos)) pos

/-- Larger addends have a larger sum. -/
theorem plus_le_plus {x x' y y' : Float} (hx : 0 ≤ x) (hx' : 0 ≤ x') (hy : 0 ≤ y) (hy' : 0 ≤ y')
    (le : x ≤ x') (le' : y ≤ y') : x + y ≤ x' + y' := by
  have defined := (defined_of_le (nonneg_plus hx hy)).2
  -- Where a larger addend is infinite, so is the larger sum. Otherwise all four are finite.
  rcases nonneg_iff.mp hx' with rfl | ⟨finite, -⟩
  · rw [infinity_add hy']
    exact le_infinity defined
  · rcases nonneg_iff.mp hy' with rfl | ⟨finite', -⟩
    · rw [add_infinity hx']
      exact le_infinity defined
    · have small := isFinite_of_le hx le finite
      have small' := isFinite_of_le hy le' finite'
      rw [le_iff_value_le small finite] at le
      rw [le_iff_value_le small' finite'] at le'
      exact (rounds_add small small').le (rounds_add finite finite') (add_le_add le le')

theorem neg_pos_of_less {x : Float} (neg : x < 0) : 0 < -x := by
  rw [lt_iff_unpack_lt, unpack_zero] at *
  rw [unpack_neg]
  revert neg
  cases x.toModel.unpack with
  | notANumber => exact nofun
  | infinity s =>
      cases s with
      | positive => exact nofun
      | negative => exact fun _ => rfl
  | zero s => exact nofun
  | finite s m q pos =>
      cases s with
      | positive => exact nofun
      | negative => exact fun _ => rfl

/-! ## Squares and roots -/

theorem nonneg_pack_infinity : 0 ≤ Float.ofModel (.pack (.infinity .positive)) := by
  rw [ofModel_pack_infinity]
  exact le_of_less infinity_pos

theorem nonneg_pack_zero (s : Sign) : 0 ≤ Float.ofModel (.pack (.zero s)) := by
  have unpacked : (Float.ofModel (.pack (.zero s))).toModel.unpack = .zero s := unpack_pack trivial
  rw [le_iff_unpack_le, unpack_zero, unpacked]
  rfl

theorem nonneg_square {x : Float} (defined : x.isNaN = false) : 0 ≤ x * x := by
  have product : x * x =
      .ofModel (.pack (UnpackedFloat.mul .binary64 x.toModel.unpack x.toModel.unpack)) := rfl
  rcases infinite_or_finite defined with rfl | rfl | finite
  · rw [product, unpack_infinity]
    exact nonneg_pack_infinity
  · rw [product, unpack_neg_infinity]
    exact nonneg_pack_infinity
  · exact (rounds_mul finite finite).nonneg (mul_self_nonneg _)

/-- A word without a sign is that of a double that is not negative, unless its exponent
is the one of the infinities and of undefined doubles. -/
theorem nonneg_components {e : BitVec 11} (other : e ≠ -1#11) (f : BitVec 52) {x : Float}
    (word : x.toModel.toBits.toBitVec = packComponents .binary64 .positive e f) : 0 ≤ x := by
  have parted : ∃ m q, parts x = .finite false m q := by
    rw [parts_eq_fields, word]
    unfold partsOfFields
    rw [unpackExponent_packComponents, unpackSign_packComponents, Sign.ofBitVec_toBitVec]
    dsimp only
    rw [if_neg other]
    split
    · exact ⟨_, _, rfl⟩
    · exact ⟨_, _, rfl⟩
  obtain ⟨m, q, parted⟩ := parted
  refine nonneg_iff.mpr (Or.inr ⟨isFinite_of_parts parted, ?_⟩)
  rw [value_of_parts parted]
  exact mul_nonneg (Nat.cast_nonneg m) (zpow_pos two_pos q).le

theorem nonneg_pack_finite {m : Nat} (q : Int) (pos : 0 < m) :
    0 ≤ Float.ofModel (.pack (.finite .positive m q pos)) := by
  by_cases great : q ≤ 971
  · have packed : ∃ e f, e ≠ -1#11 ∧
        UnpackedFloat.pack .binary64 (.finite .positive m q pos) =
          packComponents .binary64 .positive e f := by
      unfold UnpackedFloat.pack
      dsimp only
      rw [exponentBias_binary64, if_neg (by omega)]
      split
      · refine ⟨_, _, fun last => ?_, rfl⟩
        have field := congrArg BitVec.toNat last
        rw [BitVec.toNat_ofNat, show (-1#11).toNat = 2047 from rfl] at field
        omega
      · exact ⟨0#11, _, by decide, rfl⟩
    obtain ⟨e, f, other, packed⟩ := packed
    exact nonneg_components other f packed
  · rw [ofModel_pack_great great]
    exact le_of_less infinity_pos

theorem nonneg_roundWithAccuracy (m : Nat) (q : Int) (accuracy : Accuracy) :
    0 ≤ Float.ofModel
      (.pack (UnpackedFloat.roundWithAccuracy .binary64 .positive m q accuracy)) := by
  unfold UnpackedFloat.roundWithAccuracy
  dsimp only
  split
  · exact nonneg_pack_zero _
  · exact nonneg_pack_finite _ _

/-- The root of a double that is not negative is not negative either. -/
theorem nonneg_sqrt {x : Float} (hx : 0 ≤ x) : 0 ≤ x.sqrt := by
  have root : x.sqrt = .ofModel (.pack (UnpackedFloat.sqrt .binary64 x.toModel.unpack)) := rfl
  rcases nonneg_iff.mp hx with rfl | ⟨finite, above⟩
  · rw [root, unpack_infinity]
    exact nonneg_pack_infinity
  · rcases unpack_of_isFinite finite with ⟨s, ux, -⟩ | ⟨s, m, q, pos, ux, -, vx⟩
    · rw [root, ux]
      exact nonneg_pack_zero s
    · cases s with
      | positive =>
          rw [root, ux]
          exact nonneg_roundWithAccuracy _ _ _
      | negative =>
          have below : value x < 0 := by
            rw [vx, cast_apply]
            exact neg_neg_of_pos (mul_pos (Nat.cast_pos.mpr pos) (zpow_pos two_pos q))
          exact absurd above below.not_ge

end PrintPath.Number
