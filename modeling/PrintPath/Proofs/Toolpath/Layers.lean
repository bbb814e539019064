import Mathlib
import PrintPath.Proofs.Number.Closest
import PrintPath.Proofs.Number.Order
import PrintPath.Proofs.Pass.Handoff
import PrintPath.Proofs.Toolpath.Drawing

/-!
# Layers and heights

The number of a layer is a quotient that is rounded twice, to a double and to a whole
number, and its height is a product that is rounded once more. As long as the quotient
has no more than 53 bits, the height is less than a ten-thousandth of a millimetre from
the one that was deposited. So heights that are twice as far apart have layers of their
own, in the same order.
-/

namespace PrintPath

namespace Number

/-! ## Rounding twice -/

section Twice

variable {v : ℚ} {x : Float} (h : Closest v x)

include h

/-- Of a short number the two roundings leave three quarters of a unit at most. -/
theorem abs_roundAway_sub_le_of_short (short : |v| ≤ 2 ^ (52 : ℤ)) :
    |(roundAway (value x) : ℚ) - v| ≤ 3 / 4 := by
  have bits : (53 : ℤ) + -1 = 52 := rfl
  have first := h.error (e := -1) (by decide) (by decide) (by rwa [bits])
  have second := abs_roundAway_sub_le (value x)
  have triangle := abs_sub_le (roundAway (value x) : ℚ) (value x) v
  norm_num at first
  linarith

/-- A long number is rounded to a whole one at once. -/
theorem abs_roundAway_sub_le_of_long (long : (2 : ℚ) ^ (52 : ℤ) ≤ |v|)
    (short : |v| ≤ 2 ^ (53 : ℤ)) : |(roundAway (value x) : ℚ) - v| ≤ 1 / 2 := by
  have large := h.two_zpow_le_abs_value (by decide) (by decide) long
  obtain ⟨k, whole⟩ := exists_eq_mul_zpow h.finite (t := 0) (Or.inr large)
  rw [zpow_zero, mul_one] at whole
  have first := h.error (e := 0) (by decide) (by decide) short
  rw [zpow_zero] at first
  rw [whole, roundAway_intCast, ← whole]
  exact first

theorem natAbs_roundAway_le (short : |v| ≤ 2 ^ (53 : ℤ)) :
    (roundAway (value x)).natAbs ≤ 2 ^ 53 := by
  have first := h.abs_value_le_two_zpow (by decide) (by decide) short
  have second := abs_roundAway_sub_le (value x)
  have triangle := abs_sub_abs_le_abs_sub (roundAway (value x) : ℚ) (value x)
  have near : (|roundAway (value x)| : ℚ) < 2 ^ 53 + 1 := by
    norm_num at first ⊢
    linarith
  have whole : |roundAway (value x)| < 2 ^ 53 + 1 := by exact_mod_cast near
  rw [Int.abs_eq_natAbs] at whole
  omega

end Twice

/-- Short whole numbers are doubles. -/
theorem nearestInt_exact {k : ℤ} (short : k.natAbs ≤ 2 ^ 53) :
    (nearestInt k).isFinite ∧ value (nearestInt k) = k := by
  obtain ⟨x, hx, same⟩ := exists_value_eq_of_le (e := 0) short (by decide) (by decide)
  rw [zpow_zero, mul_one] at same
  have rounded := rounds_nearestRat k
  rw [← nearestInt_eq, ← same] at rounded
  have closest := rounded.closest ((rounds_value hx).isFinite_iff.mp hx)
  exact ⟨closest.finite, (closest.value_eq hx rfl).trans same⟩

end Number

open Number

/-! ## The grid -/

theorem value_layerResolution : value layerResolution = 7378697629483821 * 2 ^ (-66 : ℤ) := by
  decide +kernel

theorem isFinite_layerResolution : layerResolution.isFinite = true := by
  decide +kernel

/-- The resolution as a double is a little more than the decimal, but hardly so. -/
theorem layerResolution_bounds :
    1 / 10001 < value layerResolution ∧ value layerResolution < 1 / 9999 := by
  rw [value_layerResolution]
  norm_num

theorem layerResolution_pos : 0 < value layerResolution :=
  layerResolution_bounds.1.trans' (by norm_num)

/-- Heights that are low enough for their number on the grid to be exact. -/
def OnGrid (h : ℚ) : Prop :=
  |h| ≤ 2 ^ 53 * value layerResolution

theorem OnGrid.steps {h : ℚ} (low : OnGrid h) : |h / value layerResolution| ≤ 2 ^ (53 : ℤ) := by
  rw [abs_div, abs_of_pos layerResolution_pos, div_le_iff₀ layerResolution_pos]
  exact low

/-- The number of the layer of a height: the quotient is rounded to a double and
then to a whole number. -/
def layerOf (h : ℚ) : ℤ :=
  roundAway (value (nearestRat (h / value layerResolution)))

theorem closest_steps {h : ℚ} (low : OnGrid h) :
    Closest (h / value layerResolution) (nearestRat (h / value layerResolution)) := by
  refine (rounds_nearestRat _).closest ?_
  calc |h / value layerResolution|
      ≤ 2 ^ (53 : ℤ) := low.steps
    _ < 2 ^ (1023 : ℤ) := zpow_lt_zpow_right₀ one_lt_two (by decide)
    _ ≤ overflow := two_zpow_le_overflow

theorem natAbs_layerOf_le {h : ℚ} (low : OnGrid h) : (layerOf h).natAbs ≤ 2 ^ 53 :=
  natAbs_roundAway_le (closest_steps low) low.steps

/-- The number of a layer depends on the number that the height stands for. -/
theorem layerAt_eq_layerOf {z : Float} (hz : z.isFinite) (low : OnGrid (value z)) :
    layerAt z = layerOf (value z) := by
  have nonzero : value layerResolution ≠ 0 := layerResolution_pos.ne'
  have rounded := rounds_div hz isFinite_layerResolution nonzero
  have small : |value z / value layerResolution| < overflow :=
    (rounds_nearestRat _).isFinite_iff.mp (closest_steps low).finite
  have finite := rounded.isFinite_iff.mpr small
  have same := rounded.value_eq (rounds_nearestRat _)
  have short := natAbs_layerOf_le low
  rw [layerAt_eq, wholeInt64, isNaN_of_isFinite finite, finite, same]
  show max leastInt64 (min greatestInt64 (layerOf (value z))) = _
  unfold leastInt64 greatestInt64
  omega

/-! ## The height of a layer -/

section Height

variable {k : ℤ} (short : k.natAbs ≤ 2 ^ 53)

include short

theorem onGrid_of_natAbs_le : OnGrid (k * value layerResolution) := by
  have bound : |(k : ℚ)| ≤ 2 ^ 53 := by
    rw [← Int.cast_abs, Int.abs_eq_natAbs]
    exact_mod_cast short
  unfold OnGrid
  rw [abs_mul, abs_of_pos layerResolution_pos]
  exact mul_le_mul_of_nonneg_right bound layerResolution_pos.le

theorem closest_layerHeight : Closest (k * value layerResolution) (layerHeight k) := by
  obtain ⟨finite, same⟩ := nearestInt_exact short
  have rounded := rounds_mul finite isFinite_layerResolution
  rw [same] at rounded
  refine rounded.closest ?_
  calc |k * value layerResolution|
      ≤ 2 ^ 53 * value layerResolution := onGrid_of_natAbs_le short
    _ ≤ 2 ^ 53 * 1 := by
        have := layerResolution_bounds.2
        gcongr
        linarith
    _ = 2 ^ (53 : ℤ) := by norm_num
    _ < 2 ^ (1023 : ℤ) := zpow_lt_zpow_right₀ one_lt_two (by decide)
    _ ≤ overflow := two_zpow_le_overflow

end Height

/-- The layers ascend with their numbers, as far as they are exact. -/
theorem value_layerHeight_le {k l : ℤ} (hk : k.natAbs ≤ 2 ^ 53) (hl : l.natAbs ≤ 2 ^ 53)
    (le : k ≤ l) : value (layerHeight k) ≤ value (layerHeight l) := by
  rcases le.eq_or_lt with rfl | lt
  · exact le_rfl
  · refine (closest_layerHeight hk).mono (closest_layerHeight hl) ?_
    exact mul_lt_mul_of_pos_right (by exact_mod_cast lt) layerResolution_pos

/-- Of a layer that is not very high the height is exact enough by itself. -/
theorem abs_sub_lt_of_low {x : Float} {v h : ℚ} (closest : Closest v x)
    (near : |v - h| ≤ 3 / 4 * value layerResolution) (low : |v| ≤ 2 ^ (38 : ℤ)) :
    |value x - h| < 1 / 10000 := by
  have bits : (53 : ℤ) + -15 = 38 := rfl
  have error := closest.error (e := -15) (by decide) (by decide) (by rwa [bits])
  have triangle := abs_sub_le (value x) v h
  have resolution := layerResolution_bounds.2
  norm_num at error
  linarith

/-- High doubles are on a grid of their own, and so a height that is off by less than
four of its steps is off by three of them at most. -/
theorem abs_sub_lt_of_high {x y : Float} (hx : x.isFinite) (hy : y.isFinite)
    (highX : (2 : ℚ) ^ (37 : ℤ) ≤ |value x|) (highY : (2 : ℚ) ^ (37 : ℤ) ≤ |value y|)
    (near : |value x - value y| < 2 ^ (-13 : ℤ)) : |value x - value y| < 1 / 10000 := by
  have bits : (52 : ℤ) + -15 = 37 := rfl
  obtain ⟨i, valuedX⟩ := exists_eq_mul_zpow hx (t := -15) (Or.inr (by rwa [bits]))
  obtain ⟨j, valuedY⟩ := exists_eq_mul_zpow hy (t := -15) (Or.inr (by rwa [bits]))
  have power : (0 : ℚ) < 2 ^ (-15 : ℤ) := zpow_pos two_pos _
  have steps : |value x - value y| = (|i - j| : ℤ) * 2 ^ (-15 : ℤ) := by
    rw [valuedX, valuedY, ← sub_mul, abs_mul, abs_of_pos power]
    push_cast
    rfl
  have few : |i - j| ≤ 3 := by
    have four : (2 : ℚ) ^ (-13 : ℤ) = (4 : ℤ) * 2 ^ (-15 : ℤ) := by norm_num
    rw [steps, four, mul_lt_mul_iff_left₀ power] at near
    have less : |i - j| < 4 := by exact_mod_cast near
    omega
  calc |value x - value y|
      = (|i - j| : ℤ) * 2 ^ (-15 : ℤ) := steps
    _ ≤ 3 * 2 ^ (-15 : ℤ) := by
        have : ((|i - j| : ℤ) : ℚ) ≤ 3 := by exact_mod_cast few
        exact mul_le_mul_of_nonneg_right this power.le
    _ < 1 / 10000 := by norm_num

/-- The number of steps misses the height by three quarters of a step at most, and by
half a step if there are many. -/
theorem abs_layerOf_mul_sub_le {h : ℚ} (low : OnGrid h) :
    |layerOf h * value layerResolution - h| ≤ 3 / 4 * value layerResolution ∧
      (|h| ≤ 2 ^ (52 : ℤ) * value layerResolution ∨
        |layerOf h * value layerResolution - h| ≤ 1 / 2 * value layerResolution) := by
  have pos := layerResolution_pos
  have scaled : |layerOf h * value layerResolution - h| =
      |layerOf h - h / value layerResolution| * value layerResolution := by
    rw [← abs_of_pos pos, ← abs_mul, abs_of_pos pos, sub_mul, div_mul_cancel₀ _ pos.ne']
  have closest := closest_steps low
  rw [scaled]
  rcases le_total |h / value layerResolution| (2 ^ (52 : ℤ)) with short | long
  · have near := abs_roundAway_sub_le_of_short closest short
    refine ⟨mul_le_mul_of_nonneg_right near pos.le, Or.inl ?_⟩
    rwa [abs_div, abs_of_pos pos, div_le_iff₀ pos] at short
  · have near := abs_roundAway_sub_le_of_long closest long low.steps
    refine ⟨mul_le_mul_of_nonneg_right (near.trans (by norm_num)) pos.le, Or.inr ?_⟩
    exact mul_le_mul_of_nonneg_right near pos.le

/-- No height is off by four steps of the doubles around a high layer. -/
theorem abs_layerHeight_sub_lt_of_high {h : ℚ} (low : OnGrid h) :
    |value (layerHeight (layerOf h)) - h| < 2 ^ (-13 : ℤ) := by
  have short := natAbs_layerOf_le low
  have closest := closest_layerHeight short
  have bound : |layerOf h * value layerResolution| ≤ 2 ^ 53 * value layerResolution :=
    onGrid_of_natAbs_le short
  have triangle := abs_sub_le (value (layerHeight (layerOf h)))
    (layerOf h * value layerResolution) h
  have resolution := layerResolution_bounds.2
  obtain ⟨near, few | many⟩ := abs_layerOf_mul_sub_le low
  · have size := abs_sub_abs_le_abs_sub (layerOf h * value layerResolution) h
    have error := closest.error (e := -14) (by decide) (by decide) <| by
      generalize (layerOf h : ℚ) * value layerResolution = v at *
      norm_num at few ⊢
      linarith
    norm_num at error ⊢
    linarith
  · have error := closest.error (e := -13) (by decide) (by decide) <| by
      generalize (layerOf h : ℚ) * value layerResolution = v at *
      norm_num
      linarith
    norm_num at error ⊢
    linarith

/-- **A layer is close to what it is made of.** A height on the grid is less than a
ten-thousandth of a millimetre from that of its layer. -/
theorem abs_layerHeight_sub_lt {z : Float} (hz : z.isFinite) (low : OnGrid (value z)) :
    |value (layerHeight (layerOf (value z))) - value z| < 1 / 10000 := by
  have closest := closest_layerHeight (natAbs_layerOf_le low)
  have near := (abs_layerOf_mul_sub_le low).1
  have off := abs_layerHeight_sub_lt_of_high low
  generalize (layerOf (value z) : ℚ) * value layerResolution = v at closest near
  rcases le_total |v| (2 ^ (38 : ℤ)) with flat | high
  · exact abs_sub_lt_of_low closest near flat
  · refine abs_sub_lt_of_high closest.finite hz ?_ ?_ off
    · exact closest.two_zpow_le_abs_value (by decide) (by decide)
        (high.trans' (zpow_le_zpow_right₀ one_le_two (by decide)))
    · have triangle := abs_sub_abs_le_abs_sub v (value z)
      have resolution := layerResolution_bounds.2
      norm_num at high ⊢
      linarith

/-- The first double beyond the grid is off by more. -/
example :
    let z := Float.ofBits 0x426a36e2eb1c432e
    value z = 2 ^ 53 * value layerResolution + 2 ^ (-13 : ℤ) ∧
      1 / 10000 < |value (layerHeight (layerAt z)) - value z| := by
  decide +kernel

/-! ## Heights that are apart -/

/-- Heights of doubles on the grid, any two of which are at least a five-thousandth of a
millimetre apart. -/
structure HeightsApart (heights : Finset ℚ) : Prop where
  double : ∀ h ∈ heights, ∃ z : Float, z.isFinite ∧ value z = h
  low : ∀ h ∈ heights, OnGrid h
  apart : ∀ h ∈ heights, ∀ h' ∈ heights, h ≠ h' → 1 / 5000 ≤ |h - h'|

namespace HeightsApart

variable {heights : Finset ℚ} (h : HeightsApart heights)

include h

theorem near {v : ℚ} (hv : v ∈ heights) :
    (layerHeight (layerOf v)).isFinite ∧ |value (layerHeight (layerOf v)) - v| < 1 / 10000 := by
  obtain ⟨z, hz, rfl⟩ := h.double v hv
  have low := h.low _ hv
  exact ⟨(closest_layerHeight (natAbs_layerOf_le low)).finite, abs_layerHeight_sub_lt hz low⟩

/-- The layers of a lower and a higher height do not meet. -/
theorem value_layerHeight_lt {v w : ℚ} (hv : v ∈ heights) (hw : w ∈ heights) (lt : v < w) :
    value (layerHeight (layerOf v)) < value (layerHeight (layerOf w)) := by
  have below := (abs_lt.mp (h.near hv).2).2
  have above := (abs_lt.mp (h.near hw).2).1
  have gap := h.apart w hw v hv lt.ne'
  rw [abs_of_pos (sub_pos.mpr lt)] at gap
  linarith

theorem strictMonoOn_layerOf : StrictMonoOn layerOf heights := by
  intro v hv w hw lt
  by_contra swapped
  have le := value_layerHeight_le (natAbs_layerOf_le (h.low w hw)) (natAbs_layerOf_le (h.low v hv))
    (not_lt.mp swapped)
  exact absurd (h.value_layerHeight_lt hv hw lt) le.not_gt

theorem sort_image_layerOf :
    (heights.image layerOf).sort (· ≤ ·) = (heights.sort (· ≤ ·)).map layerOf := by
  have members : ((heights.sort (· ≤ ·)).map layerOf).toFinset = heights.image layerOf := by
    ext k
    simp
  have ascending : ((heights.sort (· ≤ ·)).map layerOf).Pairwise (· < ·) := by
    rw [List.pairwise_map]
    refine heights.sortedLT_sort.pairwise.imp_of_mem fun hv hw lt => ?_
    rw [Finset.mem_sort] at hv hw
    exact h.strictMonoOn_layerOf hv hw lt
  rw [← members]
  exact (List.toFinset_sort (· ≤ ·) (ascending.imp ne_of_lt)).mpr (ascending.imp le_of_lt)

end HeightsApart

namespace Toolpath

/-- The heights at which some moves deposit material. -/
def depositedHeights (moves : List Move) : Finset ℚ :=
  ((moves.filter deposits).map fun m => value m.finish.z).toFinset

theorem mem_depositedHeights {moves : List Move} {h : ℚ} :
    h ∈ depositedHeights moves ↔ ∃ m ∈ moves, deposits m = true ∧ value m.finish.z = h := by
  simp [depositedHeights, and_assoc]

section Moves

variable {moves : List Move} (finite : ∀ m ∈ moves, m.finish.z.isFinite)

include finite

/-- The numbers of the layers are those of the heights. -/
theorem keys_ofMoves_eq_sort_image (options : DrawingOptions)
    (low : ∀ h ∈ depositedHeights moves, OnGrid h) :
    (ofMoves options moves).layers.keys =
      ((depositedHeights moves).image layerOf).sort (· ≤ ·) := by
  rw [keys_ofMoves]
  congr 1
  ext k
  rw [List.mem_toFinset, List.mem_map, Finset.mem_image]
  constructor
  · rintro ⟨m, mem, rfl⟩
    obtain ⟨here, deposited⟩ := List.mem_filter.mp mem
    have height := mem_depositedHeights.mpr ⟨m, here, deposited, rfl⟩
    exact ⟨_, height, (layerAt_eq_layerOf (finite m here) (low _ height)).symm⟩
  · rintro ⟨h, height, rfl⟩
    obtain ⟨m, here, deposited, rfl⟩ := mem_depositedHeights.mp height
    exact ⟨m, List.mem_filter.mpr ⟨here, deposited⟩,
      layerAt_eq_layerOf (finite m here) (low _ height)⟩

/-- Heights that are apart make layers that are close to them, one by one. -/
theorem layers_ofMoves (options : DrawingOptions) (grid : HeightsApart (depositedHeights moves)) :
    (ofMoves options moves).totals.layers = (depositedHeights moves).card ∧
    (ofMoves options moves).layerHeights.Pairwise (· < ·) ∧
    List.Forall₂ (fun x h => x.isFinite = true ∧ |value x - h| < 1 / 10000)
      (ofMoves options moves).layerHeights ((depositedHeights moves).sort (· ≤ ·)) := by
  have heights : (ofMoves options moves).layerHeights =
      ((depositedHeights moves).sort (· ≤ ·)).map (layerHeight ∘ layerOf) := by
    show (ofMoves options moves).layers.keys.map layerHeight = _
    rw [keys_ofMoves_eq_sort_image finite options grid.low, grid.sort_image_layerOf, List.map_map]
  have count : (ofMoves options moves).totals.layers =
      (ofMoves options moves).layerHeights.length := by
    show _ = ((ofMoves options moves).layers.keys.map layerHeight).length
    rw [List.length_map]
    exact layers_totals_foldl_push rfl moves
  rw [count, heights]
  refine ⟨?_, ?_, ?_⟩
  · rw [List.length_map, Finset.length_sort]
  · rw [List.pairwise_map]
    refine (depositedHeights moves).sortedLT_sort.pairwise.imp_of_mem fun hv hw lt => ?_
    rw [Finset.mem_sort] at hv hw
    exact (lt_iff_value_lt (grid.near hv).1 (grid.near hw).1).mpr
      (grid.value_layerHeight_lt hv hw lt)
  · rw [List.forall₂_map_left_iff, List.forall₂_same]
    intro h mem
    exact grid.near ((Finset.mem_sort _).mp mem)

end Moves

/-- **Layers are told apart.** Take a program that deposits material at heights on the
grid, any two of which are equal or at least a five-thousandth of a millimetre apart. Every
height makes a layer. The heights of the layers ascend, and each is less than a
ten-thousandth of a millimetre from the one it stands for. -/
theorem layers_told_apart {program : String} {reading : ReadingOptions}
    {drawing : DrawingOptions} {t : Toolpath} (ok : ofProgram program reading drawing = .ok t)
    (low : ∀ h ∈ depositedHeights (movesOf (Pass.ofProgram program reading).outcomes),
      |h| ≤ 2 ^ 53 * value layerResolution)
    (apart : ∀ h ∈ depositedHeights (movesOf (Pass.ofProgram program reading).outcomes),
      ∀ h' ∈ depositedHeights (movesOf (Pass.ofProgram program reading).outcomes),
        h = h' ∨ 1 / 5000 ≤ |h - h'|) :
    let heights := depositedHeights (movesOf (Pass.ofProgram program reading).outcomes)
    t.totals.layers = heights.card ∧
    t.layerHeights.Pairwise (· < ·) ∧
    List.Forall₂ (fun x h => x.isFinite = true ∧ |value x - h| < 1 / 10000)
      t.layerHeights (heights.sort (· ≤ ·)) := by
  have finite : ∀ m ∈ movesOf (Pass.ofProgram program reading).outcomes,
      m.finish.z.isFinite := by
    intro m mem
    have point := (Pass.isFinite_of_mem_outcomes (mem_movesOf.mp mem)).2
    exact ((Bool.and_eq_true _ _).mp point).2
  obtain ⟨rfl, -⟩ := eq_built_of_ok ok
  refine layers_ofMoves finite drawing ⟨fun h mem => ?_, low, fun h mem h' mem' other => ?_⟩
  · obtain ⟨m, here, -, same⟩ := mem_depositedHeights.mp mem
    exact ⟨m.finish.z, finite m here, same⟩
  · exact (apart h mem h' mem').resolve_left other

theorem layers_told_apart_of_three :
    let program := "G1 Z9e11 X1 E1\nG1 Z-0.25 X2 E2\nG1 Z0.5 X3 E3\nG1 X4 E4"
    ∃ t, ofProgram program ⟨.strict, .abort⟩ {} = .ok t ∧ t.totals.layers = 3 ∧
      List.Forall₂ (fun x h => x.isFinite = true ∧ |value x - h| < 1 / 10000)
        t.layerHeights [-1 / 4, 1 / 2, 900000000000] := by
  intro program
  have built : (ofProgram program ⟨.strict, .abort⟩ {}).map (fun _ => ()) = .ok () := by
    decide +kernel
  have heights : depositedHeights (movesOf (Pass.ofProgram program ⟨.strict, .abort⟩).outcomes) =
      [-1 / 4, 1 / 2, 900000000000].toFinset := by
    decide +kernel
  obtain ⟨t, ok, -⟩ := exists_ok_of_map built
  obtain ⟨count, -, close⟩ := layers_told_apart ok (by rw [heights]; decide +kernel)
    (by rw [heights]; decide +kernel)
  rw [heights] at count close
  rw [(List.toFinset_sort (· ≤ ·) (by decide +kernel)).mpr (by decide +kernel)] at close
  exact ⟨t, ok, count.trans (by decide +kernel), close⟩

/-- Beyond the whole numbers of 64 bits two heights share the outermost layer, however far
apart they are. -/
theorem exists_shared_layer :
    ∃ t, ofProgram "G1 Z1e15\nG1 X1 E1\nG1 Z2e15\nG1 X2 E2" ⟨.strict, .bestEffort⟩ {} = .ok t ∧
      depositedHeights (movesOf (Pass.ofProgram "G1 Z1e15\nG1 X1 E1\nG1 Z2e15\nG1 X2 E2"
        ⟨.strict, .bestEffort⟩).outcomes) = {1000000000000000, 2000000000000000} ∧
      t.totals.layers = 1 := by
  have built : (ofProgram "G1 Z1e15\nG1 X1 E1\nG1 Z2e15\nG1 X2 E2" ⟨.strict, .bestEffort⟩ {}).map
      (·.totals.layers) = .ok 1 := by
    decide +kernel
  obtain ⟨t, ok, one⟩ := exists_ok_of_map built
  exact ⟨t, ok, by decide +kernel, one⟩

end Toolpath

end PrintPath
