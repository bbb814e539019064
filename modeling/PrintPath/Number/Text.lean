import PrintPath.Number.Decimal

/-!
# Numbers as text

Two ways to write a double. `shortest` takes the fewest decimal digits that
read back as the same double, and of those the ones nearest to it; `plain`
writes them without a power of ten. `fixed` rounds the exact value to a given
number of places, a half to the even digit.
-/

namespace PrintPath.Number

/-! ## The fewest digits that read back -/

/-- The greatest `e` with `10^e ≤ n / d`, for positive `n` and `d`. The guess
scales the binary logarithm by `log10 2` and is off by one at most. -/
def floorLog10 (n d : Nat) : Int :=
  let guess := floorLog2 n d * 30103 / 100000
  let reaches (e : Int) : Bool := d * Nat.pow 10 e.toNat ≤ n * Nat.pow 10 (-e).toNat
  if reaches (guess + 1) then guess + 1
  else if reaches guess then guess
  else guess - 1

/-- The decimals beside `n / d` on the grid of multiples of `10^k`, the nearer
one first. The upper one comes first on a tie, so that it wins. -/
def gridNeighbours (n d : Nat) (k : Int) : List Decimal :=
  let den := d * Nat.pow 10 k.toNat
  let num := n * Nat.pow 10 (-k).toNat
  let below : Decimal := ⟨num / den, k⟩
  let above : Decimal := ⟨num / den + 1, k⟩
  if 2 * (num % den) < den then [below, above] else [above, below]

/-- Takes a trailing zero off the digits, if there is one. -/
def Decimal.dropZero (d : Decimal) : Decimal :=
  if d.digits % 10 = 0 then ⟨d.digits / 10, d.exponent + 1⟩ else d

/-- The exact decimal value of `m · 2^q`. -/
def exactDecimal (m : Nat) (q : Int) : Decimal :=
  if 0 ≤ q then ⟨m <<< q.toNat, 0⟩ else ⟨m * Nat.pow 5 (-q).toNat, q⟩

/-- The shortest decimal that reads back as the positive double `m · 2^q`.
The grids of one to seventeen digits are tried in turn. -/
def shortest (m : Nat) (q : Int) : Decimal :=
  let n := m <<< q.toNat
  let d := 1 <<< (-q).toNat
  let x := nearest n d
  let e := floorLog10 n d
  let onGrid (k : Int) : Option Decimal :=
    ((gridNeighbours n d k).map Decimal.dropZero).find? (·.toFloat == x)
  ((List.range 17).findSome? fun (i : Nat) => onGrid (e - i)).getD (exactDecimal m q)

/-! ## Writing digits -/

/-- Digits with a point before the last `places` of them. -/
def withPoint (places : Nat) (n : Nat) : List Char :=
  let ds := toDigits n
  let ds := List.replicate (places + 1 - ds.length) '0' ++ ds
  let whole := ds.length - places
  if places = 0 then ds else ds.take whole ++ '.' :: ds.drop whole

/-- A decimal without a power of ten: zeros fill the gap to the point. -/
def Decimal.plain (d : Decimal) : List Char :=
  if 0 ≤ d.exponent then toDigits d.digits ++ List.replicate d.exponent.toNat '0'
  else withPoint (-d.exponent).toNat d.digits

def signText (negative : Bool) : List Char :=
  if negative then ['-'] else []

/-- Writes a double: the values without digits by name, the others by a sign
and the text of their magnitude. -/
def writeWith (magnitude : Nat → Int → List Char) (x : Float) : List Char :=
  match parts x with
  | .nan => ['N', 'a', 'N']
  | .infinity negative => signText negative ++ ['i', 'n', 'f']
  | .finite negative m q => signText negative ++ magnitude m q

/-- The shortest text that reads back as the same double, without a power of
ten and without a point after a whole number. -/
def plain : Float → List Char :=
  writeWith fun m q => if m = 0 then ['0'] else (shortest m q).plain

/-- The exact value rounded to a number of places, a half to even. -/
def fixed (places : Nat) : Float → List Char :=
  writeWith fun m q =>
    withPoint places (roundEven ((m <<< q.toNat) * Nat.pow 10 places) (1 <<< (-q).toNat))

end PrintPath.Number
