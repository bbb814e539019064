import PrintPath.Document.Scan
import PrintPath.Document.Basic
import PrintPath.Number.Decimal

/-!
# JSON numbers

Whole numbers of 64 bits are exact. Every other number is read in one quick
rounding step: its leading digits fill an integer of 64 bits, further digits
are not looked at, and the power of ten is applied by a multiplication or a
division of doubles. The result may be off in its last bit.
-/

namespace PrintPath.Json

open PrintPath.Number

/-- The parts of a number as they are written. -/
structure Numeral where
  negative : Bool
  whole : List Char
  /-- The digits behind the point, if there is one. -/
  fraction : Option (List Char)
  /-- The power of ten, if there is one. -/
  exponent : Option Int

/-- The digits at the front of a text, at least one. -/
def digits : Scanner (List Char) := fun cs =>
  let ds := cs.takeWhile isDigit
  if ds = [] then none else some (ds, cs.dropWhile isDigit)

def fraction : Scanner (Option (List Char))
  | '.' :: cs => (digits cs).map fun (ds, rest) => (some ds, rest)
  | cs => some (none, cs)

def exponent : Scanner (Option Int)
  | c :: cs =>
    if c = 'e' ∨ c = 'E' then do
      let (negative, cs) := takeSign cs
      let (ds, rest) ← digits cs
      some (some (if negative then -(ofDigits ds : Int) else ofDigits ds), rest)
    else some (none, c :: cs)
  | [] => some (none, [])

/-- A number in the form of the format: no plus sign in front, and no zero in
front of another digit. -/
def numeral : Scanner Numeral := fun cs => do
  let (negative, cs) := match cs with
    | '-' :: rest => (true, rest)
    | rest => (false, rest)
  let (whole, cs) ← digits cs
  if whole.head? == some '0' && whole.length != 1 then none
  else
    let (fraction, cs) ← fraction cs
    let (exponent, cs) ← exponent cs
    some (⟨negative, whole, fraction, exponent⟩, cs)

/-- Appends digits to a number as long as it stays below `2^64`. Gives the
number and how many digits it took. -/
def absorb (n : Nat) : List Char → Nat × Nat
  | [] => (n, 0)
  | c :: cs =>
    let n' := 10 * n + ofDigits [c]
    if n' < UInt64.size then
      let (m, taken) := absorb n' cs
      (m, taken + 1)
    else (n, 0)

/-- The double nearest to a power of ten. -/
def powerOfTen (e : Nat) : Float :=
  Decimal.toFloat ⟨1, e⟩

/-- Multiplies by a power of ten. Powers below `10^-308` are applied in steps
of that size; a result beyond the greatest double is refused. -/
def scale : Nat → Float → Int → Option Float
  | 0, x, _ => some x
  | steps + 1, x, e =>
    if x == 0 then some x
    else if 308 < e then none
    else if 0 ≤ e then
      let y := x * powerOfTen e.toNat
      if y.isFinite then some y else none
    else if -308 ≤ e then some (x / powerOfTen (-e).toNat)
    else scale steps (x / powerOfTen 308) (e + 308)

/-- The double of a number that is not a whole number of 64 bits. -/
def Numeral.float (n : Numeral) : Option Float :=
  let (high, takenWhole) := absorb 0 n.whole
  let (significand, takenFraction) := absorb high (n.fraction.getD [])
  let e : Int := (n.whole.length : Int) - takenWhole - takenFraction + n.exponent.getD 0
  (scale 3 (nearest significand 1) e).map (withSign n.negative)

/-- What a number stands for. Minus zero is not a whole number. -/
def Numeral.toDocument (n : Numeral) : Document :=
  let i := ofDigits n.whole
  let isWhole := n.fraction.isNone && n.exponent.isNone
  if isWhole && !n.negative && decide (i < UInt64.size) then .integer i
  else if isWhole && n.negative && decide (0 < i ∧ leastInt64 ≤ -i) then .integer (-i)
  else match n.float with
    | some x => .float x
    | none => .unreadable

end PrintPath.Json
