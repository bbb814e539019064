import PrintPath.Proofs.Machine.Soundness
import PrintPath.Proofs.Number.Absorption
import PrintPath.Toolpath.Segment

/-!
# The kind of a move

Whether a move pushes filament out or pulls it back is read off the difference between
the extruder's axis after the move and before it. In relative mode that has the sign of
the argument, unless the axis is so far out that it absorbs the argument.
-/

namespace PrintPath

open Number

/-! ## Kinds and signs -/

/-- The extrusion of a move is defined, and the move is flagged by its sign. -/
structure Move.Flagged (move : Move) : Prop where
  defined : move.extrusion.isNaN = false
  extruding_iff : move.extruding = true ↔ 0 < move.extrusion

theorem Move.isRetraction_iff (move : Move) : move.isRetraction = true ↔ move.extrusion < 0 :=
  decide_eq_true_iff

namespace Move.Flagged

variable {move : Move} (h : move.Flagged)

include h

theorem kind_eq_extrusion_iff : move.kind = .extrusion ↔ 0 < move.extrusion := by
  rw [← h.extruding_iff]
  unfold Move.kind
  cases move.extruding with
  | true => simp
  | false => cases move.isRetraction <;> simp

theorem kind_eq_retraction_iff : move.kind = .retraction ↔ move.extrusion < 0 := by
  rw [← move.isRetraction_iff]
  have other (pos : move.extruding = true) : ¬ move.isRetraction = true := by
    rw [move.isRetraction_iff]
    exact not_neg_of_pos (h.extruding_iff.mp pos)
  revert other
  unfold Move.kind
  cases move.extruding with
  | true => simp
  | false => cases move.isRetraction <;> simp

end Move.Flagged

/-! ## Lengths in millimetres -/

namespace LengthUnit

/-- The length of a unit in millimetres. -/
def factor : LengthUnit → ℚ
  | .millimeters => 1
  | .inches => value 25.4

theorem one_le_factor (unit : LengthUnit) : 1 ≤ unit.factor := by
  cases unit with
  | millimeters => exact le_rfl
  | inches => decide +kernel

section Sign

variable {d : Float} (hd : d.isFinite) (unit : LengthUnit)

include hd

theorem rounds_inMillimeters : Rounds (value d * unit.factor) (unit.inMillimeters d) := by
  cases unit with
  | millimeters =>
      rw [factor, mul_one]
      exact rounds_value hd
  | inches =>
      have inch : (25.4 : Float).isFinite = true := by decide +kernel
      exact rounds_mul hd inch

/-- No unit is so short that a length would be rounded to zero. -/
theorem coarse_inMillimeters : Coarse (value d * unit.factor) :=
  (coarse_value hd).mul unit.one_le_factor

theorem inMillimeters_pos_iff : 0 < unit.inMillimeters d ↔ 0 < d := by
  rw [(unit.rounds_inMillimeters hd).pos_iff (unit.coarse_inMillimeters hd),
    mul_pos_iff_of_pos_right (one_pos.trans_le unit.one_le_factor),
    lt_iff_value_lt isFinite_zero hd, value_zero]

theorem inMillimeters_neg_iff : unit.inMillimeters d < 0 ↔ d < 0 := by
  rw [(unit.rounds_inMillimeters hd).neg_iff (unit.coarse_inMillimeters hd),
    Rat.mul_neg_iff_of_pos_right (one_pos.trans_le unit.one_le_factor),
    lt_iff_value_lt hd isFinite_zero, value_zero]

end Sign

end LengthUnit

namespace Machine

theorem flagged_of_step {m m' : Machine} {b : Block} {move : Move} (sound : m.Sound)
    (step : m.step b = .ok (m', some move)) : move.Flagged := by
  have sound' := sound_of_step step
  obtain ⟨rapid, _, _, rfl⟩ := move_of_step step
  exact ⟨isNaN_sub sound'.extruded sound.extruded, decide_eq_true_iff⟩

/-- A move command that is not refused reports a move. -/
theorem exists_move_of_step {m : Machine} {b : Block} {r : Machine × Option Move}
    (word : b.command = "G0" ∨ b.command = "G1") (step : m.step b = .ok r) :
    ∃ move, r.2 = some move := by
  obtain ⟨c, known, rfl, -⟩ := step_eq_ok_iff.mp step
  rcases word with word | word <;> rw [word] at known <;> cases known <;> exact ⟨_, rfl⟩

/-- The extruder's axis after a move in relative mode. -/
theorem extruded_of_relative {m : Machine} {b : Block} {d : Float}
    (relative : m.extrusion = .relative) (given : b.axis .e = some d) :
    (m.afterMove b).extruded = m.extruded + m.unit.inMillimeters d := by
  have moved : (m.afterMove b).axis .e = movedTo b m.modes .e (m.axis .e) := axis_afterMove m b .e
  rw [movedTo, given] at moved
  refine moved.trans ?_
  show m.extrusion.resolve m.extruded (m.unit.inMillimeters d) = _
  rw [relative]
  rfl

/-- The extrusion of a move in relative mode is what is left of the argument when it is
added to the axis and the axis is subtracted again. -/
theorem extrusion_of_relative {m m' : Machine} {b : Block} {d : Float} {move : Move}
    (relative : m.extrusion = .relative) (given : b.axis .e = some d)
    (step : m.step b = .ok (m', some move)) :
    (m.extruded + m.unit.inMillimeters d).isFinite ∧
      move.extrusion = m.extruded + m.unit.inMillimeters d - m.extruded := by
  have sound' := sound_of_step step
  obtain ⟨rapid, -, rfl, rfl⟩ := move_of_step step
  rw [← extruded_of_relative relative given]
  exact ⟨sound'.extruded, rfl⟩

/-- **Relative extrusion has the sign of the argument, unless the axis absorbs it.** A move
by a finite length in relative mode extrudes exactly if the length is positive, and it
retracts exactly if the length is negative, provided that adding it changes the axis at
all. It always does as long as the axis is not 2^53 times as far out. -/
theorem relative_extrusion {bs : List Block} {b : Block} {d : Float} {r : Machine × Option Move}
    (relative : (initial.run bs).extrusion = .relative)
    (word : b.command = "G0" ∨ b.command = "G1") (given : b.axis .e = some d)
    (finite : d.isFinite) (step : (initial.run bs).step b = .ok r) :
    let e := (initial.run bs).extruded
    let c := (initial.run bs).unit.inMillimeters d
    ∃ move, r.2 = some move ∧
      (move.extruding = true ↔ 0 < d ∧ ¬ Absorbs e c) ∧
      (move.kind = .extrusion ↔ 0 < d ∧ ¬ Absorbs e c) ∧
      (move.isRetraction = true ↔ d < 0 ∧ ¬ Absorbs e c) ∧
      (move.kind = .retraction ↔ d < 0 ∧ ¬ Absorbs e c) ∧
      (Absorbs e c → 2 ^ 53 * |value c| ≤ |value e|) := by
  intro e c
  have sound : (initial.run bs).Sound := sound_run bs
  have axis : e.isFinite := sound.extruded
  obtain ⟨m', moved⟩ := r
  obtain ⟨move, rfl⟩ : ∃ move, moved = some move := exists_move_of_step word step
  obtain ⟨sum, change⟩ : (e + c).isFinite ∧ move.extrusion = e + c - e :=
    extrusion_of_relative relative given step
  -- The check after the step has seen the sum, and so the addend is finite as well.
  have length : c.isFinite := isFinite_of_isFinite_add axis sum
  have flagged := flagged_of_step sound step
  have pos : 0 < move.extrusion ↔ 0 < d ∧ ¬ Absorbs e c := by
    rw [change, add_sub_pos_iff axis length sum, LengthUnit.inMillimeters_pos_iff finite]
  have neg : move.extrusion < 0 ↔ d < 0 ∧ ¬ Absorbs e c := by
    rw [change, add_sub_neg_iff axis length sum, LengthUnit.inMillimeters_neg_iff finite]
  exact ⟨move, rfl, flagged.extruding_iff.trans pos, flagged.kind_eq_extrusion_iff.trans pos,
    move.isRetraction_iff.trans neg, flagged.kind_eq_retraction_iff.trans neg,
    le_abs_value_of_absorbs axis length sum⟩

/-- A tenth of an inch is pulled back from an axis that is at 100 millimetres. -/
theorem relative_extrusion_of_inches :
    let m := initial.run [(Block.bare "G92" 1).withArgument 'e' 100, .bare "M83" 2, .bare "G20" 3]
    let b := (Block.bare "G1" 4).withArgument 'e' (-0.1)
    ∃ r, m.step b = .ok r ∧ ∃ move, r.2 = some move ∧ move.kind = .retraction := by
  intro m b
  have step : m.step b = .ok (m.afterMove b, some (m.moveBetween (m.afterMove b) false 4)) := by
    decide +kernel
  obtain ⟨move, made, -, -, -, retracts, -⟩ :=
    relative_extrusion (d := -0.1) (by decide +kernel) (Or.inr rfl) (by decide +kernel)
      (by decide +kernel) step
  exact ⟨_, step, move, made, retracts.mpr (by decide +kernel)⟩

/-- An axis at 2^53 millimetres absorbs one more. The move is no extrusion, though its
argument is positive. -/
theorem exists_absorbed_extrusion :
    let m := initial.run [(Block.bare "G92" 1).withArgument 'e' 9007199254740992, .bare "M83" 2]
    let b := (Block.bare "G1" 3).withArgument 'e' 1
    m.extrusion = .relative ∧ b.axis .e = some 1 ∧ (1 : Float).isFinite ∧ (0 : Float) < 1 ∧
      ∃ m' move, m.step b = .ok (m', some move) ∧
        move.extruding = false ∧ move.kind = .travel ∧ Absorbs m.extruded 1 := by
  intro m b
  refine ⟨?_, ?_, ?_, ?_, m.afterMove b, m.moveBetween (m.afterMove b) false 3, ?_⟩ <;>
    decide +kernel

end Machine

end PrintPath
