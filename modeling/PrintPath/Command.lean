import PrintPath.Modes

/-!
# Commands

The commands that a machine knows. A command is told by its word, in exactly
this spelling.
-/

namespace PrintPath

inductive Command where
  /-- A straight move. A rapid one does not intend to extrude. -/
  | move (rapid : Bool)
  | selectUnit (unit : LengthUnit)
  /-- Sets the mode of all axes. -/
  | selectPositioning (mode : Positioning)
  /-- Redefines the current position without a move. -/
  | setPosition
  /-- Sets the mode of the extruder alone. -/
  | selectExtrusion (mode : Positioning)
  | releaseMotors
deriving DecidableEq, Repr

namespace Command

def word : Command → String
  | move true => "G0"
  | move false => "G1"
  | selectUnit .inches => "G20"
  | selectUnit .millimeters => "G21"
  | selectPositioning .absolute => "G90"
  | selectPositioning .relative => "G91"
  | setPosition => "G92"
  | selectExtrusion .absolute => "M82"
  | selectExtrusion .relative => "M83"
  | releaseMotors => "M84"

def title : Command → String
  | move true => "Rapid move"
  | move false => "Linear move"
  | selectUnit .inches => "Set units to inches"
  | selectUnit .millimeters => "Set units to millimeters"
  | selectPositioning .absolute => "Absolute positioning"
  | selectPositioning .relative => "Relative positioning"
  | setPosition => "Set position"
  | selectExtrusion .absolute => "Absolute extrusion"
  | selectExtrusion .relative => "Relative extrusion"
  | releaseMotors => "Stop idle hold"

def description (c : Command) : String :=
  s!"{c.title} ({c.word})"

def all : List Command :=
  [.move true, .move false, .selectUnit .inches, .selectUnit .millimeters,
   .selectPositioning .absolute, .selectPositioning .relative, .setPosition,
   .selectExtrusion .absolute, .selectExtrusion .relative, .releaseMotors]

/-- The command of a word, if it is known. -/
def ofWord? (word : String) : Option Command :=
  all.find? (·.word == word)

theorem word_of_ofWord? {w : String} {c : Command} (h : ofWord? w = some c) :
    c.word = w := by
  simpa using List.find?_some h

end Command

end PrintPath
