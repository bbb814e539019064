/-!
# Modes

What a program can switch about the meaning of its numbers: the unit of
length, and whether a value is a position or an offset.
-/

namespace PrintPath

/-- The unit of a program's numbers. -/
inductive LengthUnit where
  | millimeters
  | inches
deriving DecidableEq, Repr, Inhabited

def millimetersPerInch : Float :=
  25.4

/-- A length of this unit in millimetres. -/
def LengthUnit.toMillimeters : LengthUnit → Float → Float
  | .millimeters, v => v
  | .inches, v => v * millimetersPerInch

/-- The unit's name in a summary. -/
def LengthUnit.description : LengthUnit → String
  | .millimeters => "Millimeters (G21)"
  | .inches => "Inches (G20)"

/-- How an argument acts on the value it addresses. -/
inductive Positioning where
  | absolute
  | relative
deriving DecidableEq, Repr, Inhabited

/-- The new value of an axis. -/
def Positioning.resolve : Positioning → (current supplied : Float) → Float
  | .absolute, _, supplied => supplied
  | .relative, current, supplied => current + supplied

end PrintPath
