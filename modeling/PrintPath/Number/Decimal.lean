import PrintPath.Number.Binary64

/-!
# Decimal numbers and their literals

A decimal is a natural number times a power of ten. A literal is an optional
sign, digits with an optional point, and an optional power of ten; it stands
for the double nearest to its decimal.
-/

namespace PrintPath.Number

/-- The number `digits · 10^exponent`. -/
structure Decimal where
  digits : Nat
  exponent : Int
deriving DecidableEq, Repr

/-- The double nearest to a decimal. The two guards keep powers of ten small:
beyond them the decimal is far above the greatest double or far below the
least one. -/
def Decimal.toFloat (d : Decimal) : Float :=
  if d.digits = 0 then nearest 0 1
  else if 400 < d.exponent then Float.ofBits 0x7ff0000000000000
  else if d.exponent < -(400 + d.digits.log2) then nearest 0 1
  else nearest (d.digits * Nat.pow 10 d.exponent.toNat) (Nat.pow 10 (-d.exponent).toNat)

def isDigit (c : Char) : Bool :=
  '0' ≤ c && c ≤ '9'

/-- The number that a list of digits writes. -/
def ofDigits (cs : List Char) : Nat :=
  cs.foldl (fun n c => 10 * n + (c.toNat - '0'.toNat)) 0

/-- The decimal digits of a number, without leading zeros. -/
def toDigits (n : Nat) : List Char :=
  Nat.toDigits 10 n

/-! ## Literals -/

/-- A leading sign, and what follows it. -/
def takeSign : List Char → Bool × List Char
  | '-' :: rest => (true, rest)
  | '+' :: rest => (false, rest)
  | rest => (false, rest)

/-- The power of ten at the end of a literal: nothing, or `e`, a sign and at
least one digit. -/
def readExponent : List Char → Option Int
  | [] => some 0
  | e :: rest =>
    if e = 'e' ∨ e = 'E' then
      let (negative, digits) := takeSign rest
      if digits ≠ [] ∧ digits.all isDigit then
        some (if negative then -(ofDigits digits : Int) else ofDigits digits)
      else none
    else none

/-- The digits before and after the point, and what follows them. -/
def splitMantissa (cs : List Char) : List Char × List Char × List Char :=
  let whole := cs.takeWhile isDigit
  match cs.dropWhile isDigit with
  | '.' :: rest => (whole, rest.takeWhile isDigit, rest.dropWhile isDigit)
  | rest => (whole, [], rest)

/-- An unsigned decimal literal. It has a digit before or after the point. -/
def readDecimal (cs : List Char) : Option Decimal :=
  let (whole, fraction, rest) := splitMantissa cs
  if whole = [] ∧ fraction = [] then none
  else (readExponent rest).map fun e =>
    ⟨ofDigits (whole ++ fraction), e - fraction.length⟩

/-- The names of the values that have no digits, in lower case. -/
def readName (cs : List Char) : Option Float :=
  let lower := cs.map Char.toLower
  if lower = ['i', 'n', 'f'] ∨ lower = ['i', 'n', 'f', 'i', 'n', 'i', 't', 'y'] then
    some (Float.ofBits 0x7ff0000000000000)
  else if lower = ['n', 'a', 'n'] then some (Float.ofBits 0x7ff8000000000000)
  else none

/-- The double that a literal stands for. -/
def readFloat (cs : List Char) : Option Float :=
  let (negative, body) := takeSign cs
  ((readName body).or ((readDecimal body).map Decimal.toFloat)).map (withSign negative)

end PrintPath.Number
