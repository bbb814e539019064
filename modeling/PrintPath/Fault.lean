/-!
# Faults

What can be wrong with a line of a program. Every fault carries the number of
its line, counted from one.
-/

namespace PrintPath

/-- Why a word is no argument. -/
inductive Defect where
  | noLetter
  | noValue
  | notANumber
  | notFinite
deriving DecidableEq, Repr

def Defect.message : Defect → String
  | .noLetter => "argument must start with a letter"
  | .noValue => "missing numeric value"
  | .notANumber => "invalid float literal"
  | .notFinite => "value is not finite"

/-- The part of a machine whose value is not a finite number. -/
inductive Quantity where
  | position
  | extrudedLength
  | feedRate
deriving DecidableEq, Repr

def Quantity.violation : Quantity → String
  | .position => "position is not finite"
  | .extrudedLength => "extruded length is not finite"
  | .feedRate => "feed rate is not finite"

inductive Fault where
  | malformedArgument (line : Nat) (word : String) (defect : Defect)
  | unknownCommand (line : Nat) (command : String)
  | notFinite (line : Nat) (quantity : Quantity)
deriving DecidableEq, Repr

namespace Fault

def line : Fault → Nat
  | malformedArgument n _ _ => n
  | unknownCommand n _ => n
  | notFinite n _ => n

/-- Whether the run ends whatever the policy. -/
def isFatal : Fault → Bool
  | notFinite _ _ => true
  | _ => false

def message : Fault → String
  | malformedArgument n word defect =>
    s!"Malformed argument '{word}' at line {n}: {defect.message}"
  | unknownCommand n command => s!"Unrecognized command at line {n}: {command}"
  | notFinite n quantity => s!"State invariant violated at line {n}: {quantity.violation}"

end Fault

end PrintPath
