import PrintPath.Block.Basic
import PrintPath.Machine.Basic
import PrintPath.Move

/-!
# Running a block

A step applies a block to a machine. Moves give a `Move`, other commands only
change the machine. A step that would leave the machine unsound is refused
and so changes nothing.
-/

namespace PrintPath.Machine

/-- Applies the argument for one axis of a move, if the block has one. -/
def moveAxis (b : Block) (m : Machine) (a : Axis) : Machine :=
  match b.axis a with
  | none => m
  | some v => m.setAxis a ((m.modeOf a).resolve (m.axis a) (m.unit.toMillimeters v))

/-- Applies the feed rate of a move. It follows the mode of the axes. -/
def moveFeed (b : Block) (m : Machine) : Machine :=
  match b.argument 'f' with
  | none => m
  | some v =>
    { m with feedRate := m.positioning.resolve m.feedRate (m.unit.toMillimeters v) }

/-- The machine after a move. -/
def afterMove (m : Machine) (b : Block) : Machine :=
  moveFeed b (Axis.all.foldl (moveAxis b) m)

/-- The move between two states of a machine. -/
def moveBetween (m m' : Machine) (rapid : Bool) (line : Nat) : Move :=
  let extrusion := m'.extruded - m.extruded
  { start := m.position
    finish := m'.position
    extruding := 0 < extrusion
    extrusion := extrusion
    feedRate := m'.feedRate
    rapid := rapid
    line := line }

/-- Overwrites one axis with the block's argument, if it has one. -/
def placeAxis (b : Block) (m : Machine) (a : Axis) : Machine :=
  match b.axis a with
  | none => m
  | some v => m.setAxis a (m.unit.toMillimeters v)

/-- The machine after its position is redefined. -/
def afterPlacing (m : Machine) (b : Block) : Machine :=
  Axis.all.foldl (placeAxis b) m

/-- Applies a command, without a check of the outcome. -/
def apply (m : Machine) (b : Block) : Command → Machine × Option Move
  | .move rapid =>
    let m' := m.afterMove b
    (m', some (m.moveBetween m' rapid b.line))
  | .selectUnit unit => ({ m with unit := unit }, none)
  | .selectPositioning mode => ({ m with positioning := mode, extrusion := mode }, none)
  | .setPosition => (m.afterPlacing b, none)
  | .selectExtrusion mode => ({ m with extrusion := mode }, none)
  | .releaseMotors => (m, none)

/-- Runs a block: the machine after it, and the move it made. -/
def step (m : Machine) (b : Block) : Except Fault (Machine × Option Move) :=
  match Command.ofWord? b.command with
  | none => .error (.unknownCommand b.line b.command)
  | some command =>
    let (m', move) := m.apply b command
    match m'.check b.line with
    | .error fault => .error fault
    | .ok () => .ok (m', move)

/-- The machine after a block, whether it was refused or not. -/
def after (m : Machine) (b : Block) : Machine :=
  match m.step b with
  | .ok (m', _) => m'
  | .error _ => m

end PrintPath.Machine
