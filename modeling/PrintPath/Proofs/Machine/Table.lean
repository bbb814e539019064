import PrintPath.Proofs.Machine.Soundness

/-!
# The table of commands

Every command with the machine and the move that it leads to, written down
without the order in which a step goes through the arguments: an axis is told by
its old value, its own argument, the mode that governs it and the unit. A step is a line
of the table, unless the machine would be left unsound.
-/

namespace PrintPath.Machine

/-- The new value of a number that a block may address, by the argument for it. -/
inductive Resolves (mode : Positioning) (unit : LengthUnit) (old : Float) :
    Option Float → Float → Prop
  | kept : Resolves mode unit old none old
  | absolute {v : Float} : mode = .absolute →
      Resolves mode unit old (some v) (unit.inMillimeters v)
  | relative {v : Float} : mode = .relative →
      Resolves mode unit old (some v) (old + unit.inMillimeters v)

/-- What a move does to a machine. The extruder has a mode of its own, and the feed
rate shares that of the axes in space. -/
structure MovedBy (m : Machine) (b : Block) (m' : Machine) : Prop where
  x : Resolves m.positioning m.unit m.position.x (b.argument 'x') m'.position.x
  y : Resolves m.positioning m.unit m.position.y (b.argument 'y') m'.position.y
  z : Resolves m.positioning m.unit m.position.z (b.argument 'z') m'.position.z
  e : Resolves m.extrusion m.unit m.extruded (b.argument 'e') m'.extruded
  feedRate : Resolves m.positioning m.unit m.feedRate (b.argument 'f') m'.feedRate
  positioning : m'.positioning = m.positioning
  extrusion : m'.extrusion = m.extrusion
  unit : m'.unit = m.unit

/-- What a move reports about the machines before and after it. -/
structure Reports (m : Machine) (b : Block) (rapid : Bool) (m' : Machine) (move : Move) :
    Prop where
  start : move.start = m.position
  finish : move.finish = m'.position
  extrusion : move.extrusion = m'.extruded - m.extruded
  extruding : move.extruding = true ↔ 0 < move.extrusion
  feedRate : move.feedRate = m'.feedRate
  rapid : move.rapid = rapid
  line : move.line = b.line

/-- What a redefined position does to a machine. Its arguments are positions whatever
the modes, and a feed rate on the line does not count. -/
structure PlacedBy (m : Machine) (b : Block) (m' : Machine) : Prop where
  x : Resolves .absolute m.unit m.position.x (b.argument 'x') m'.position.x
  y : Resolves .absolute m.unit m.position.y (b.argument 'y') m'.position.y
  z : Resolves .absolute m.unit m.position.z (b.argument 'z') m'.position.z
  e : Resolves .absolute m.unit m.extruded (b.argument 'e') m'.extruded
  feedRate : m'.feedRate = m.feedRate
  positioning : m'.positioning = m.positioning
  extrusion : m'.extrusion = m.extrusion
  unit : m'.unit = m.unit

/-- The table: the machine after each command, and the move it reports. -/
inductive Transition (m : Machine) (b : Block) : Machine → Option Move → Prop
  | rapidMove {m' : Machine} {move : Move} : b.command = "G0" →
      MovedBy m b m' → Reports m b true m' move → Transition m b m' (some move)
  | linearMove {m' : Machine} {move : Move} : b.command = "G1" →
      MovedBy m b m' → Reports m b false m' move → Transition m b m' (some move)
  | inches : b.command = "G20" → Transition m b { m with unit := .inches } none
  | millimeters : b.command = "G21" → Transition m b { m with unit := .millimeters } none
  | absolute : b.command = "G90" →
      Transition m b { m with positioning := .absolute, extrusion := .absolute } none
  | relative : b.command = "G91" →
      Transition m b { m with positioning := .relative, extrusion := .relative } none
  | place {m' : Machine} : b.command = "G92" → PlacedBy m b m' → Transition m b m' none
  | absoluteExtrusion : b.command = "M82" →
      Transition m b { m with extrusion := .absolute } none
  | relativeExtrusion : b.command = "M83" →
      Transition m b { m with extrusion := .relative } none
  | release : b.command = "M84" → Transition m b m none

/-! ## Moves and redefined positions -/

theorem resolves_iff {mode : Positioning} {unit : LengthUnit} {old new : Float}
    {given : Option Float} :
    Resolves mode unit old given new ↔
      new = match given with
        | none => old
        | some v => mode.resolve old (unit.inMillimeters v) := by
  constructor
  · rintro (_ | mode | mode)
    · rfl
    · rw [mode]
      rfl
    · rw [mode]
      rfl
  · rintro rfl
    cases given with
    | none => exact .kept
    | some v =>
        cases mode with
        | absolute => exact .absolute rfl
        | relative => exact .relative rfl

theorem resolves_movedTo_iff {m : Machine} {b : Block} {a : Axis} {new : Float} :
    Resolves (m.modes.of a) m.unit (m.axis a) (b.axis a) new ↔
      new = movedTo b m.modes a (m.axis a) :=
  resolves_iff

theorem resolves_placedAt_iff {m : Machine} {b : Block} {a : Axis} {new : Float} :
    Resolves .absolute m.unit (m.axis a) (b.axis a) new ↔
      new = placedAt b m.modes a (m.axis a) :=
  resolves_iff

theorem resolves_feedRate_iff {m : Machine} {b : Block} {new : Float} :
    Resolves m.positioning m.unit m.feedRate (b.argument 'f') new ↔
      new = feedTo b m.modes m.feedRate :=
  resolves_iff

theorem modes_eq_iff {m m' : Machine} : m'.modes = m.modes ↔
    m'.positioning = m.positioning ∧ m'.extrusion = m.extrusion ∧ m'.unit = m.unit := by
  simp [modes]

theorem movedBy_iff {m m' : Machine} {b : Block} : MovedBy m b m' ↔ m' = m.afterMove b := by
  constructor
  · rintro ⟨x, y, z, e, feedRate, positioning, extrusion, unit⟩
    refine ext_axis (fun a => ?_) ?_ ?_
    · rw [axis_afterMove]
      cases a with
      | x => exact resolves_movedTo_iff.mp x
      | y => exact resolves_movedTo_iff.mp y
      | z => exact resolves_movedTo_iff.mp z
      | e => exact resolves_movedTo_iff.mp e
    · rw [feedRate_afterMove]
      exact resolves_feedRate_iff.mp feedRate
    · rw [modes_afterMove]
      exact modes_eq_iff.mpr ⟨positioning, extrusion, unit⟩
  · rintro rfl
    have moved (a : Axis) : Resolves (m.modes.of a) m.unit (m.axis a) (b.axis a)
        ((m.afterMove b).axis a) := resolves_movedTo_iff.mpr (axis_afterMove m b a)
    obtain ⟨positioning, extrusion, unit⟩ := modes_eq_iff.mp (modes_afterMove m b)
    exact ⟨moved .x, moved .y, moved .z, moved .e,
      resolves_feedRate_iff.mpr (feedRate_afterMove m b), positioning, extrusion, unit⟩

theorem placedBy_iff {m m' : Machine} {b : Block} :
    PlacedBy m b m' ↔ m' = m.afterPlacing b := by
  constructor
  · rintro ⟨x, y, z, e, feedRate, positioning, extrusion, unit⟩
    refine ext_axis (fun a => ?_) ?_ ?_
    · rw [axis_afterPlacing]
      cases a with
      | x => exact resolves_placedAt_iff.mp x
      | y => exact resolves_placedAt_iff.mp y
      | z => exact resolves_placedAt_iff.mp z
      | e => exact resolves_placedAt_iff.mp e
    · rw [feedRate_afterPlacing, feedRate]
    · rw [modes_afterPlacing]
      exact modes_eq_iff.mpr ⟨positioning, extrusion, unit⟩
  · rintro rfl
    have placed (a : Axis) : Resolves .absolute m.unit (m.axis a) (b.axis a)
        ((m.afterPlacing b).axis a) := resolves_placedAt_iff.mpr (axis_afterPlacing m b a)
    obtain ⟨positioning, extrusion, unit⟩ := modes_eq_iff.mp (modes_afterPlacing m b)
    exact ⟨placed .x, placed .y, placed .z, placed .e, feedRate_afterPlacing m b, positioning,
      extrusion, unit⟩

theorem reports_iff {m m' : Machine} {b : Block} {rapid : Bool} {move : Move} :
    Reports m b rapid m' move ↔ move = m.moveBetween m' rapid b.line := by
  constructor
  · rintro ⟨start, finish, extrusion, extruding, feedRate, rapid, line⟩
    obtain ⟨_, _, flag, _, _, _, _⟩ := move
    dsimp only at start finish extrusion extruding feedRate rapid line
    subst start finish extrusion feedRate rapid line
    have flag_eq : flag = decide (0 < m'.extruded - m.extruded) :=
      Bool.eq_iff_iff.mpr (extruding.trans decide_eq_true_iff.symm)
    rw [flag_eq, moveBetween]
  · rintro rfl
    exact ⟨rfl, rfl, rfl, decide_eq_true_iff, rfl, rfl, rfl⟩

/-! ## Steps -/

/-- The table has a line for every command, which says what the command makes of a
machine. -/
theorem transition_iff_apply {m m' : Machine} {b : Block} {move : Option Move} :
    Transition m b m' move ↔
      ∃ c, Command.ofWord? b.command = some c ∧ (m', move) = m.apply b c := by
  constructor
  · intro h
    cases h with
    | rapidMove word moved reported =>
        obtain rfl := movedBy_iff.mp moved
        obtain rfl := reports_iff.mp reported
        exact ⟨.move true, word ▸ rfl, rfl⟩
    | linearMove word moved reported =>
        obtain rfl := movedBy_iff.mp moved
        obtain rfl := reports_iff.mp reported
        exact ⟨.move false, word ▸ rfl, rfl⟩
    | place word placed =>
        obtain rfl := placedBy_iff.mp placed
        exact ⟨.setPosition, word ▸ rfl, rfl⟩
    | inches word => exact ⟨.selectUnit .inches, word ▸ rfl, rfl⟩
    | millimeters word => exact ⟨.selectUnit .millimeters, word ▸ rfl, rfl⟩
    | absolute word => exact ⟨.selectPositioning .absolute, word ▸ rfl, rfl⟩
    | relative word => exact ⟨.selectPositioning .relative, word ▸ rfl, rfl⟩
    | absoluteExtrusion word => exact ⟨.selectExtrusion .absolute, word ▸ rfl, rfl⟩
    | relativeExtrusion word => exact ⟨.selectExtrusion .relative, word ▸ rfl, rfl⟩
    | release word => exact ⟨.releaseMotors, word ▸ rfl, rfl⟩
  · rintro ⟨c, known, result⟩
    have word := (Command.word_of_ofWord? known).symm
    cases c with
    | move rapid =>
        cases result
        have moved := movedBy_iff.mpr (rfl : m.afterMove b = m.afterMove b)
        cases rapid with
        | true => exact .rapidMove word moved (reports_iff.mpr rfl)
        | false => exact .linearMove word moved (reports_iff.mpr rfl)
    | setPosition =>
        cases result
        exact .place word (placedBy_iff.mpr rfl)
    | selectUnit unit =>
        cases result
        cases unit with
        | inches => exact .inches word
        | millimeters => exact .millimeters word
    | selectPositioning mode =>
        cases result
        cases mode with
        | absolute => exact .absolute word
        | relative => exact .relative word
    | selectExtrusion mode =>
        cases result
        cases mode with
        | absolute => exact .absoluteExtrusion word
        | relative => exact .relativeExtrusion word
    | releaseMotors =>
        cases result
        exact .release word

/-- **A step is a line of the table.** It succeeds with a machine and a move exactly
if the table leads to them and all numbers of the machine are finite. -/
theorem step_eq_ok_iff_transition (m : Machine) (b : Block) (m' : Machine)
    (move : Option Move) :
    m.step b = .ok (m', move) ↔ Transition m b m' move ∧ m'.Sound := by
  rw [step_eq_ok_iff, transition_iff_apply, ← unsound?_eq_none_iff]
  constructor
  · rintro ⟨c, known, result, sound⟩
    exact ⟨⟨c, known, result⟩, sound⟩
  · rintro ⟨⟨c, known, result⟩, sound⟩
    exact ⟨c, known, result, sound⟩

end PrintPath.Machine
