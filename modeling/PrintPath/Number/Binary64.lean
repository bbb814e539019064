import PrintPath.Number.Rounding

/-!
# Exact contents of a double

A finite double is a sign and a product `m · 2^q` of a natural number and a
power of two. `parts` reads these off the word; `nearest` goes the other way
and gives the double nearest to a quotient of natural numbers.
-/

namespace PrintPath.Number

/-- The bounds of the signed integers of 64 bits. -/
def leastInt64 : Int :=
  -0x8000000000000000

def greatestInt64 : Int :=
  0x7fffffffffffffff

/-- What a double stands for. A finite one is `m · 2^q` with a sign. -/
inductive Parts where
  | nan
  | infinity (negative : Bool)
  | finite (negative : Bool) (m : Nat) (q : Int)
deriving DecidableEq, Repr

/-- The bit of the sign. -/
def signBit : Nat :=
  0x8000000000000000

/-- The bit below which the fraction stands. A normal significand has it. -/
def leadingBit : Nat :=
  0x10000000000000

/-- How many values the field of the exponent has. The last one is not that
of a finite number. -/
def fieldSize : Nat :=
  2048

def parts (x : Float) : Parts :=
  let word := x.toBits.toNat
  let negative := decide (signBit ≤ word)
  let field : Nat := word / leadingBit % fieldSize
  let fraction : Nat := word % leadingBit
  if field = fieldSize - 1 then
    if fraction = 0 then .infinity negative else .nan
  else if field = 0 then
    .finite negative fraction (-1074)
  else
    .finite negative (leadingBit + fraction) ((field : Int) - 1075)

/-- The greatest `e` with `2^e ≤ n / d`, for positive `n` and `d`. -/
def floorLog2 (n d : Nat) : Int :=
  let e : Int := n.log2 - d.log2
  if d <<< e.toNat ≤ n <<< (-e).toNat then e else e - 1

/-- The word of the double nearest to `n / d`, ties to even. The significand
is counted in steps of `2^q`, where `q` is the spacing of the doubles around
`n / d`. The words of the non-negative doubles ascend with their values, so a
significand that rounds up to the next power of two carries into the exponent
by itself, and everything beyond the greatest double is cut off at infinity. -/
def nearestWord (n d : Nat) : Nat :=
  if n = 0 then 0
  else
    let q := max (-1074) (floorLog2 n d - 52)
    let m := roundEven (n <<< (-q).toNat) (d <<< q.toNat)
    min ((q + 1074).toNat * leadingBit + m) ((fieldSize - 1) * leadingBit)

/-- The double nearest to `n / d`. -/
def nearest (n d : Nat) : Float :=
  Float.ofBits (UInt64.ofNat (nearestWord n d))

def withSign (negative : Bool) (x : Float) : Float :=
  if negative then -x else x

/-- The double nearest to a whole number. -/
def nearestInt (i : Int) : Float :=
  withSign (decide (i < 0)) (nearest i.natAbs 1)

/-- `m · 2^q` rounded to a whole number, a half away from zero. -/
def wholeNearest (m : Nat) (q : Int) : Nat :=
  if 0 ≤ q then m <<< q.toNat else roundUp m (1 <<< (-q).toNat)

end PrintPath.Number
