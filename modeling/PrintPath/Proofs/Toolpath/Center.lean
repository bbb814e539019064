import Mathlib
import PrintPath.Proofs.Number.Closest
import PrintPath.Proofs.Number.Whole
import PrintPath.Proofs.Toolpath.Bounds

/-!
# The centre of a toolpath

The centre of a box is the mean of its corners, and the mean of two doubles is half
their sum. The sum may be beyond the doubles although both are far from it, and then
the centre is at infinity. Otherwise the centre is in the box: the sum is rounded, but
not past twice a double, since that is a double itself or is beyond them all.
-/

namespace PrintPath

namespace Number

/-! ## The mean of two doubles -/

theorem abs_value_lt_overflow {x : Float} (hx : x.isFinite) : |value x| < overflow :=
  (rounds_value hx).isFinite_iff.mp hx

/-- Twice a finite double is a double, unless it is beyond them. -/
theorem exists_double {x : Float} (hx : x.isFinite) :
    (∃ y : Float, y.isFinite ∧ value y = 2 * value x) ∨ overflow ≤ 2 * |value x| := by
  rcases unpack_of_isFinite hx with ⟨-, -, zero⟩ | ⟨s, m, q, -, -, ⟨fits, least, most, full⟩, valued⟩
  · exact Or.inl ⟨x, hx, by rw [zero, mul_zero]⟩
  rcases most.lt_or_eq with small | rfl
  · have size : (s.apply m : Int).natAbs = m := by
      cases s with
      | positive => rfl
      | negative => exact Int.natAbs_neg m
    obtain ⟨y, hy, twice⟩ := exists_value_eq (size.trans_lt fits) (e := q + 1) (by omega) (by omega)
    refine Or.inl ⟨y, hy, ?_⟩
    rw [twice, valued, zpow_add_one₀ two_ne_zero]
    ring
  · have long : (2 : ℚ) ^ (52 : ℤ) ≤ m := by
      have := full.resolve_right (by decide)
      exact_mod_cast this
    right
    rw [valued, cast_apply, abs_signed, abs_of_nonneg (by positivity)]
    calc overflow
        ≤ 2 ^ (1024 : ℤ) := overflow_le_two_zpow
      _ = 2 * (2 ^ (52 : ℤ) * 2 ^ (971 : ℤ)) := by
          rw [← zpow_add₀ two_ne_zero, ← zpow_one_add₀ two_ne_zero]
          rfl
      _ ≤ 2 * (m * 2 ^ (971 : ℤ)) := by gcongr

section Mean

variable {x y : Float} (hx : x.isFinite) (hy : y.isFinite)

include hx hy

/-- A finite sum is not rounded past twice its lesser part, nor past twice its greater
part. -/
theorem double_le_value_add (finite : (x + y).isFinite) (le : value x ≤ value y) :
    2 * value x ≤ value (x + y) ∧ value (x + y) ≤ 2 * value y := by
  have rounded := rounds_add hx hy
  have small := rounded.isFinite_iff.mp finite
  have closest := rounded.closest small
  have most := abs_lt.mp (abs_value_lt_overflow finite)
  have sum := abs_lt.mp small
  constructor
  · rcases exists_double hx with ⟨z, hz, twice⟩ | beyond
    · rw [← twice]
      exact closest.le_value hz (by linarith)
    · rcases abs_cases (value x) with ⟨same, _⟩ | ⟨same, _⟩ <;> linarith
  · rcases exists_double hy with ⟨z, hz, twice⟩ | beyond
    · rw [← twice]
      exact closest.value_le hz (by linarith)
    · rcases abs_cases (value y) with ⟨same, _⟩ | ⟨same, _⟩ <;> linarith

end Mean

theorem value_two : value 2 = 2 := by
  decide +kernel

theorem rounds_half {x : Float} (hx : x.isFinite) : Rounds (value x / 2) (x / 2) := by
  have rounded := rounds_div hx (y := 2) (by decide +kernel) (by rw [value_two]; norm_num)
  rwa [value_two] at rounded

theorem half_of_isFinite {x : Float} (hx : x.isFinite) :
    (x / 2).isFinite = true ∧ Closest (value x / 2) (x / 2) := by
  have small : |value x / 2| < overflow := by
    have := abs_value_lt_overflow hx
    rw [abs_div, abs_two]
    linarith [abs_nonneg (value x)]
  exact ⟨(rounds_half hx).isFinite_iff.mpr small, (rounds_half hx).closest small⟩

/-- Half of an infinity is infinite. -/
theorem half_of_not_isFinite {x : Float} (infinite : ¬ x.isFinite = true)
    (defined : x.isNaN = false) : (x / 2).isFinite = false ∧ (x / 2).isNaN = false := by
  cases parted : parts x with
  | nan =>
      rw [isNaN_of_parts parted] at defined
      cases defined
  | infinity negative =>
      obtain rfl := eq_of_parts_infinity parted
      cases negative <;> decide +kernel
  | finite negative m q => exact absurd (isFinite_of_parts parted) infinite

/-- The mean of two finite doubles is finite unless their sum is beyond the doubles, and
then it is between the two. -/
theorem mean_between {x y : Float} (hx : x.isFinite) (hy : y.isFinite) (le : x ≤ y) :
    ((x + y) / 2).isNaN = false ∧
    (((x + y) / 2).isFinite = true ↔ |value x + value y| < overflow) ∧
    (((x + y) / 2).isFinite = true → x ≤ (x + y) / 2 ∧ (x + y) / 2 ≤ y) := by
  have sum := rounds_add hx hy
  rw [← sum.isFinite_iff]
  by_cases finite : (x + y).isFinite = true
  · obtain ⟨half, closest⟩ := half_of_isFinite finite
    refine ⟨isNaN_of_isFinite half, iff_of_true half finite, fun _ => ?_⟩
    rw [le_iff_value_le hx hy] at le
    obtain ⟨above, below⟩ := double_le_value_add hx hy finite le
    rw [le_iff_value_le hx half, le_iff_value_le half hy]
    exact ⟨closest.le_value hx (by linarith), closest.value_le hy (by linarith)⟩
  · obtain ⟨infinite, defined⟩ := half_of_not_isFinite finite sum.isNaN
    have infinite := Bool.eq_false_iff.mp infinite
    exact ⟨defined, iff_of_false infinite finite, fun h => absurd h infinite⟩

end Number

namespace Toolpath

open Number (value overflow)

theorem coordinate_midpoint {c : Point → Float} (hc : c ∈ Point.coordinates) (p q : Point) :
    c (p.midpoint q) = (c p + c q) / 2 := by
  revert c
  simp [Point.coordinates, Point.midpoint]

/-- **The centre is in the box, or at infinity.** A toolpath with a segment has a centre.
On each axis it is never undefined, and it is finite exactly if the sum of the two corners
is within the doubles. As far as it is finite, it is between the corners. -/
theorem center_between {program : String} {reading : ReadingOptions} {drawing : DrawingOptions}
    {t : Toolpath} (ok : ofProgram program reading drawing = .ok t) (some : t.segments ≠ #[]) :
    ∃ center, t.center? = .some center ∧ ∀ c ∈ [Point.x, Point.y, Point.z],
      (c center).isNaN = false ∧
      ((c center).isFinite = true ↔
        |value (c t.box.low) + value (c t.box.high)| < overflow) ∧
      ((c center).isFinite = true → c t.box.low ≤ c center ∧ c center ≤ c t.box.high) := by
  have valid := (isValid_iff_of_ok ok).mpr some
  have finite := (boxed_of_ok ok).2
  refine ⟨t.box.low.midpoint t.box.high, if_pos valid, fun c hc => ?_⟩
  obtain ⟨⟨p, memP, low⟩, q, memQ, high⟩ := (tight_of_ok ok some).touched c hc
  rw [coordinate_midpoint hc]
  refine Number.mean_between ?_ ?_ (Box.isValid_iff.mp valid c hc)
  · rw [← low]
    exact Point.isFinite_coordinate (finite p memP) hc
  · rw [← high]
    exact Point.isFinite_coordinate (finite q memQ) hc

/-- The least double and zero have no double between them, and the centre is one of them. -/
theorem center_between_of_least_double :
    ∃ t center, ofProgram "G1 X5e-324 E1" ⟨.strict, .abort⟩ {} = .ok t ∧
      t.center? = some center ∧ t.box.low.x ≤ center.x ∧ center.x ≤ t.box.high.x := by
  have built : (ofProgram "G1 X5e-324 E1" ⟨.strict, .abort⟩ {}).map
      (fun t => (t.isEmpty, t.center?.map (·.x.isFinite))) = .ok (false, some true) := by
    decide +kernel
  obtain ⟨t, ok, computed⟩ := exists_ok_of_map built
  obtain ⟨some, finite⟩ := Prod.mk.inj computed
  obtain ⟨center, here, between⟩ := center_between ok (ne_of_isEmpty some)
  rw [here] at finite
  exact ⟨t, center, ok, here,
    (between Point.x List.mem_cons_self).2.2 (Option.some.inj finite)⟩

/-- All points have one coordinate, and the centre has not: twice it is beyond the
doubles. -/
theorem exists_infinite_center :
    ∃ t center, ofProgram "G92 X1.7e308\nG1 X1.7e308 Y1 E1" ⟨.strict, .bestEffort⟩ {} = .ok t ∧
      t.segments ≠ #[] ∧ t.center? = some center ∧ center.x.isFinite = false := by
  have built : (ofProgram "G92 X1.7e308\nG1 X1.7e308 Y1 E1" ⟨.strict, .bestEffort⟩ {}).map
      (fun t => (t.isEmpty, t.center?.map (·.x.isFinite))) = .ok (false, some false) := by
    decide +kernel
  obtain ⟨t, ok, computed⟩ := exists_ok_of_map built
  obtain ⟨some, infinite⟩ := Prod.mk.inj computed
  obtain ⟨center, here, at_⟩ := Option.map_eq_some_iff.mp infinite
  exact ⟨t, center, ok, ne_of_isEmpty some, here, at_⟩

end Toolpath

end PrintPath
