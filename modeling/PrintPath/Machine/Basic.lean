import PrintPath.Command
import PrintPath.Fault
import PrintPath.Point

/-!
# Machines

The state of a printer between two blocks. Lengths are in millimetres
whatever unit the program uses. A machine is sound if all its numbers are
finite.
-/

namespace PrintPath

structure Machine where
  position : Point := .origin
  /-- The length of filament on the extruder's axis. -/
  extruded : Float := 0
  feedRate : Float := 0
  /-- The mode of the three axes in space, and of the feed rate. -/
  positioning : Positioning := .absolute
  /-- The mode of the extruder. -/
  extrusion : Positioning := .absolute
  unit : LengthUnit := .millimeters
deriving DecidableEq, Repr

namespace Machine

/-- A machine that has just been switched on. -/
def initial : Machine := {}

def axis (m : Machine) : Axis → Float
  | .x => m.position.x
  | .y => m.position.y
  | .z => m.position.z
  | .e => m.extruded

def setAxis (m : Machine) (a : Axis) (v : Float) : Machine :=
  match a with
  | .e => { m with extruded := v }
  | a => { m with position := m.position.set a v }

/-- The mode that governs an axis. -/
def modeOf (m : Machine) : Axis → Positioning
  | .e => m.extrusion
  | _ => m.positioning

/-- The quantity that is not finite, if there is one. -/
def unsound? (m : Machine) : Option Quantity :=
  if !m.position.isFinite then some .position
  else if !m.extruded.isFinite then some .extrudedLength
  else if !m.feedRate.isFinite then some .feedRate
  else none

/-- Refuses a machine that is not sound, on account of line `n`. -/
def check (m : Machine) (n : Nat) : Except Fault Unit :=
  match m.unsound? with
  | some quantity => .error (.notFinite n quantity)
  | none => .ok ()

/-- The names of the machine's modes in a summary. -/
def modeDescriptions (m : Machine) : List String :=
  [(Command.selectPositioning m.positioning).description,
   (Command.selectExtrusion m.extrusion).description,
   m.unit.description]

end Machine

end PrintPath
