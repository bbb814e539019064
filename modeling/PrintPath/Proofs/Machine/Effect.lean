import PrintPath.Machine.Step

/-!
# The effect of a block, axis by axis

A move applies its arguments one axis after the other to a machine that is
already half updated. No axis notices: the value of an axis afterwards depends
on its own argument, its own old value and the modes. The same holds where the
position is redefined, with no mode but the unit involved.

The last section says all that a step can do, for later proofs to cite instead
of unfolding it.
-/

namespace PrintPath

/-- Whether a command reads the numbers of its block: it is a move or redefines
the position. -/
def Command.isGeometric : Command → Bool
  | .move _ => true
  | .setPosition => true
  | _ => false

theorem Command.word_of_isGeometric {c : Command} (h : c.isGeometric = true) :
    c.word ∈ ["G0", "G1", "G92"] := by
  cases c with
  | move rapid => cases rapid <;> simp [word]
  | setPosition => simp [word]
  | selectUnit unit => cases h
  | selectPositioning mode => cases h
  | selectExtrusion mode => cases h
  | releaseMotors => cases h

/-- A number of a program in millimetres. An inch has 25.4 of them. -/
def LengthUnit.inMillimeters (unit : LengthUnit) (v : Float) : Float :=
  if unit = .inches then v * 25.4 else v

theorem LengthUnit.toMillimeters_eq (unit : LengthUnit) (v : Float) :
    unit.toMillimeters v = unit.inMillimeters v := by
  cases unit <;> rfl

/-- What the numbers of a program mean to a machine. -/
structure Modes where
  positioning : Positioning
  extrusion : Positioning
  unit : LengthUnit
deriving DecidableEq, Repr

/-- The mode that governs an axis. -/
def Modes.of (s : Modes) : Axis → Positioning
  | .e => s.extrusion
  | _ => s.positioning

namespace Machine

def modes (m : Machine) : Modes :=
  ⟨m.positioning, m.extrusion, m.unit⟩

/-! ## Setting an axis -/

theorem axis_setAxis (m : Machine) (a a' : Axis) (v : Float) :
    (m.setAxis a v).axis a' = if a' = a then v else m.axis a' := by
  cases a <;> cases a' <;> rfl

@[simp] theorem feedRate_setAxis (m : Machine) (a : Axis) (v : Float) :
    (m.setAxis a v).feedRate = m.feedRate := by
  cases a <;> rfl

@[simp] theorem modes_setAxis (m : Machine) (a : Axis) (v : Float) :
    (m.setAxis a v).modes = m.modes := by
  cases a <;> rfl

theorem setAxis_axis (m : Machine) (a : Axis) : m.setAxis a (m.axis a) = m := by
  cases a <;> rfl

theorem modeOf_eq (m : Machine) (a : Axis) : m.modeOf a = m.modes.of a := by
  cases a <;> rfl

/-- Machines that agree on every axis, the feed rate and the modes are the
same. -/
theorem ext_axis {m n : Machine} (axis : ∀ a, m.axis a = n.axis a)
    (feedRate : m.feedRate = n.feedRate) (modes : m.modes = n.modes) : m = n := by
  have hx := axis .x
  have hy := axis .y
  have hz := axis .z
  have he := axis .e
  obtain ⟨⟨_, _, _⟩, _, _, _, _, _⟩ := m
  obtain ⟨⟨_, _, _⟩, _, _, _, _, _⟩ := n
  simp_all [Machine.axis, Machine.modes]

/-! ## Setting one axis after the other -/

/-- Writes the axes of a list in turn. A rule gives the new value of an axis
from the modes and its old value. -/
def setAxes (rule : Modes → Axis → Float → Float) (axes : List Axis) (m : Machine) : Machine :=
  axes.foldl (fun m a => m.setAxis a (rule m.modes a (m.axis a))) m

section Fold

variable (rule : Modes → Axis → Float → Float)

theorem setAxes_cons (a : Axis) (axes : List Axis) (m : Machine) :
    setAxes rule (a :: axes) m =
      setAxes rule axes (m.setAxis a (rule m.modes a (m.axis a))) := rfl

@[simp] theorem modes_setAxes (axes : List Axis) (m : Machine) :
    (setAxes rule axes m).modes = m.modes := by
  induction axes generalizing m with
  | nil => rfl
  | cons a axes ih => rw [setAxes_cons, ih, modes_setAxis]

@[simp] theorem feedRate_setAxes (axes : List Axis) (m : Machine) :
    (setAxes rule axes m).feedRate = m.feedRate := by
  induction axes generalizing m with
  | nil => rfl
  | cons a axes ih => rw [setAxes_cons, ih, feedRate_setAxis]

/-- Writing an axis does not disturb the others, so the order of the list does
not matter. -/
theorem axis_setAxes {axes : List Axis} (distinct : axes.Nodup) (m : Machine) (a : Axis) :
    (setAxes rule axes m).axis a =
      if a ∈ axes then rule m.modes a (m.axis a) else m.axis a := by
  induction axes generalizing m with
  | nil => rfl
  | cons a' axes ih =>
      obtain ⟨fresh, distinct⟩ := List.nodup_cons.mp distinct
      rw [setAxes_cons, ih distinct, modes_setAxis, axis_setAxis]
      by_cases h : a = a'
      · subst h
        simp [fresh]
      · simp [h]

theorem axis_setAxes_all (m : Machine) (a : Axis) :
    (setAxes rule Axis.all m).axis a = rule m.modes a (m.axis a) := by
  have distinct : Axis.all.Nodup := by decide
  rw [axis_setAxes rule distinct, if_pos a.mem_all]

end Fold

/-! ## Moves and redefined positions -/

/-- The value of an axis after a move. -/
def movedTo (b : Block) (s : Modes) (a : Axis) (old : Float) : Float :=
  match b.axis a with
  | none => old
  | some v => (s.of a).resolve old (s.unit.inMillimeters v)

/-- The feed rate after a move. -/
def feedTo (b : Block) (s : Modes) (old : Float) : Float :=
  match b.argument 'f' with
  | none => old
  | some v => s.positioning.resolve old (s.unit.inMillimeters v)

/-- The value of an axis after the position is redefined. -/
def placedAt (b : Block) (s : Modes) (a : Axis) (old : Float) : Float :=
  match b.axis a with
  | none => old
  | some v => s.unit.inMillimeters v

theorem moveAxis_eq (b : Block) :
    moveAxis b = fun m a => m.setAxis a (movedTo b m.modes a (m.axis a)) := by
  funext m a
  unfold moveAxis movedTo
  cases b.axis a with
  | none => exact (setAxis_axis m a).symm
  | some v =>
      dsimp only
      rw [LengthUnit.toMillimeters_eq, modeOf_eq]
      rfl

theorem placeAxis_eq (b : Block) :
    placeAxis b = fun m a => m.setAxis a (placedAt b m.modes a (m.axis a)) := by
  funext m a
  unfold placeAxis placedAt
  cases b.axis a with
  | none => exact (setAxis_axis m a).symm
  | some v => exact congrArg (m.setAxis a) (m.unit.toMillimeters_eq v)

theorem moveFeed_eq (b : Block) (m : Machine) :
    moveFeed b m = { m with feedRate := feedTo b m.modes m.feedRate } := by
  unfold moveFeed feedTo
  cases b.argument 'f' with
  | none => rfl
  | some v =>
      dsimp only
      rw [LengthUnit.toMillimeters_eq]
      rfl

theorem afterMove_eq (m : Machine) (b : Block) :
    m.afterMove b = moveFeed b (setAxes (movedTo b) Axis.all m) := by
  unfold afterMove
  rw [moveAxis_eq]
  rfl

theorem afterPlacing_eq (m : Machine) (b : Block) :
    m.afterPlacing b = setAxes (placedAt b) Axis.all m := by
  unfold afterPlacing
  rw [placeAxis_eq]
  rfl

theorem axis_afterMove (m : Machine) (b : Block) (a : Axis) :
    (m.afterMove b).axis a = movedTo b m.modes a (m.axis a) := by
  rw [afterMove_eq, moveFeed_eq, ← axis_setAxes_all (movedTo b) m a]
  cases a <;> rfl

theorem feedRate_afterMove (m : Machine) (b : Block) :
    (m.afterMove b).feedRate = feedTo b m.modes m.feedRate := by
  simp [afterMove_eq, moveFeed_eq]

theorem modes_afterMove (m : Machine) (b : Block) : (m.afterMove b).modes = m.modes := by
  rw [afterMove_eq, moveFeed_eq, ← modes_setAxes (movedTo b) Axis.all m]
  rfl

theorem axis_afterPlacing (m : Machine) (b : Block) (a : Axis) :
    (m.afterPlacing b).axis a = placedAt b m.modes a (m.axis a) := by
  rw [afterPlacing_eq, axis_setAxes_all]

theorem feedRate_afterPlacing (m : Machine) (b : Block) :
    (m.afterPlacing b).feedRate = m.feedRate := by
  rw [afterPlacing_eq, feedRate_setAxes]

theorem modes_afterPlacing (m : Machine) (b : Block) : (m.afterPlacing b).modes = m.modes := by
  rw [afterPlacing_eq, modes_setAxes]

/-! ## Commands and steps -/

/-- The modes after a command. -/
def modesAfter (s : Modes) : Command → Modes
  | .selectUnit unit => { s with unit := unit }
  | .selectPositioning mode => { s with positioning := mode, extrusion := mode }
  | .selectExtrusion mode => { s with extrusion := mode }
  | _ => s

theorem modes_apply (m : Machine) (b : Block) (c : Command) :
    (m.apply b c).1.modes = modesAfter m.modes c := by
  cases c with
  | move rapid => exact modes_afterMove m b
  | setPosition => exact modes_afterPlacing m b
  | selectUnit unit => rfl
  | selectPositioning mode => rfl
  | selectExtrusion mode => rfl
  | releaseMotors => rfl

/-- A command that is not geometric leaves the numbers alone. -/
theorem numbers_apply (m : Machine) (b : Block) {c : Command} (h : c.isGeometric = false) :
    (∀ a, (m.apply b c).1.axis a = m.axis a) ∧ (m.apply b c).1.feedRate = m.feedRate := by
  cases c with
  | move rapid => cases h
  | setPosition => cases h
  | selectUnit unit => exact ⟨fun a => by cases a <;> rfl, rfl⟩
  | selectPositioning mode => exact ⟨fun a => by cases a <;> rfl, rfl⟩
  | selectExtrusion mode => exact ⟨fun a => by cases a <;> rfl, rfl⟩
  | releaseMotors => exact ⟨fun a => rfl, rfl⟩

theorem step_unknown (m : Machine) {b : Block} (h : Command.ofWord? b.command = none) :
    m.step b = .error (.unknownCommand b.line b.command) := by
  simp [step, h]

theorem step_known (m : Machine) {b : Block} {c : Command}
    (h : Command.ofWord? b.command = some c) :
    m.step b = match (m.apply b c).1.unsound? with
      | some q => .error (.notFinite b.line q)
      | none => .ok (m.apply b c) := by
  unfold step check
  rw [h]
  cases hq : (m.apply b c).1.unsound? <;> simp [hq]

/-- A step succeeds exactly if the command is known and leaves a machine that
passes the check. -/
theorem step_eq_ok_iff {m : Machine} {b : Block} {r : Machine × Option Move} :
    m.step b = .ok r ↔
      ∃ c, Command.ofWord? b.command = some c ∧ r = m.apply b c ∧ r.1.unsound? = none := by
  cases hc : Command.ofWord? b.command with
  | none => simp [step_unknown m hc]
  | some c =>
      rw [step_known m hc]
      cases hq : (m.apply b c).1.unsound? with
      | none =>
          constructor
          · intro h
            obtain rfl := Except.ok.inj h
            exact ⟨c, rfl, rfl, hq⟩
          · rintro ⟨_, hc', rfl, _⟩
            rw [Option.some.inj hc']
      | some q =>
          constructor
          · intro h
            cases h
          · rintro ⟨_, hc', rfl, sound⟩
            rw [← Option.some.inj hc', hq] at sound
            cases sound

/-- A step fails on a word that is no command, or on a machine that would not
pass the check. -/
theorem step_eq_error_iff {m : Machine} {b : Block} {fault : Fault} :
    m.step b = .error fault ↔
      (Command.ofWord? b.command = none ∧ fault = .unknownCommand b.line b.command) ∨
      ∃ c q, Command.ofWord? b.command = some c ∧ (m.apply b c).1.unsound? = some q ∧
        fault = .notFinite b.line q := by
  cases hc : Command.ofWord? b.command with
  | none => simp [step_unknown m hc, eq_comm]
  | some c =>
      rw [step_known m hc]
      cases hq : (m.apply b c).1.unsound? with
      | none => simp [hq]
      | some q => simp [hq, eq_comm]

/-- The fault of a step is that of the block's line. -/
theorem line_of_step_error {m : Machine} {b : Block} {fault : Fault}
    (h : m.step b = .error fault) : fault.line = b.line := by
  rcases step_eq_error_iff.mp h with ⟨_, rfl⟩ | ⟨_, _, _, _, rfl⟩ <;> rfl

/-- Only a move command reports a move, the one between the machines before and
after it. -/
theorem move_of_step {m m' : Machine} {b : Block} {move : Move}
    (h : m.step b = .ok (m', some move)) :
    ∃ rapid, Command.ofWord? b.command = some (.move rapid) ∧ m' = m.afterMove b ∧
      move = m.moveBetween m' rapid b.line := by
  obtain ⟨c, known, result, _⟩ := step_eq_ok_iff.mp h
  cases c with
  | move rapid =>
      cases result
      exact ⟨rapid, known, rfl, rfl⟩
  | setPosition => cases result
  | selectUnit unit => cases result
  | selectPositioning mode => cases result
  | selectExtrusion mode => cases result
  | releaseMotors => cases result

/-- The move of a step is that of the block's line. -/
theorem line_of_step_move {m m' : Machine} {b : Block} {move : Move}
    (h : m.step b = .ok (m', some move)) : move.line = b.line := by
  obtain ⟨rapid, _, _, rfl⟩ := move_of_step h
  rfl

theorem after_of_ok {m : Machine} {b : Block} {r : Machine × Option Move}
    (h : m.step b = .ok r) : m.after b = r.1 := by
  simp [after, h]

theorem after_of_error {m : Machine} {b : Block} {fault : Fault}
    (h : m.step b = .error fault) : m.after b = m := by
  simp [after, h]

end Machine

end PrintPath
