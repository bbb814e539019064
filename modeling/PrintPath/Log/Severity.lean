import PrintPath.Number.Decimal
import PrintPath.Text.Blank

/-!
# Severities

How much a message of the log matters. In settings a severity is a name in
any case or a number from one, the gravest, to five.
-/

namespace PrintPath

inductive Severity where
  | error
  | warn
  | info
  | debug
  | trace
deriving DecidableEq, Repr

namespace Severity

def all : List Severity :=
  [.error, .warn, .info, .debug, .trace]

/-- One for the gravest, five for the least. -/
def rank : Severity → Nat
  | error => 1
  | warn => 2
  | info => 3
  | debug => 4
  | trace => 5

def name : Severity → String
  | error => "ERROR"
  | warn => "WARN"
  | info => "INFO"
  | debug => "DEBUG"
  | trace => "TRACE"

/-- A number in decimal digits, with at most a plus sign, below `2^64`. -/
def readRank (cs : List Char) : Option Nat :=
  let digits := match cs with
    | '+' :: rest => rest
    | rest => rest
  if digits ≠ [] ∧ digits.all Number.isDigit ∧ Number.ofDigits digits < UInt64.size then
    some (Number.ofDigits digits)
  else none

/-- Whether two texts differ in the case of ASCII letters at most. -/
def sameLetters (cs ds : List Char) : Bool :=
  cs.map Char.toUpper == ds.map Char.toUpper

/-- The severity of a name or a number, without blanks around it. -/
def read (cs : List Char) : Option Severity :=
  all.find? fun s => readRank cs == some s.rank || sameLetters cs s.name.toList

end Severity

end PrintPath
