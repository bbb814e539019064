/-!
# Scanning

A scanner takes a value off the front of a text and gives what is left, or
refuses. Loops are bounded by the length of the text that they start on.
-/

namespace PrintPath

/-- Takes an `α` off the front of a text. -/
abbrev Scanner (α : Type) := List Char → Option (α × List Char)

namespace Scanner

/-- What is left after a given beginning. -/
def after? : List Char → List Char → Option (List Char)
  | [], rest => some rest
  | c :: cs, d :: rest => if c = d then after? cs rest else none
  | _ :: _, [] => none

def hexDigit? (c : Char) : Option Nat :=
  if '0' ≤ c ∧ c ≤ '9' then some (c.toNat - '0'.toNat)
  else if 'a' ≤ c ∧ c ≤ 'f' then some (c.toNat - 'a'.toNat + 10)
  else if 'A' ≤ c ∧ c ≤ 'F' then some (c.toNat - 'A'.toNat + 10)
  else none

/-- The number that hexadecimal digits write. -/
def ofHex? (cs : List Char) : Option Nat :=
  cs.foldlM (fun n c => (hexDigit? c).map (16 * n + ·)) 0

/-- The character of a code point in hexadecimal digits. -/
def codePoint? (digits : List Char) : Option Char := do
  let n ← ofHex? digits
  if n < 0xd800 ∨ (0xdfff < n ∧ n < 0x110000) then some (Char.ofNat n) else none

/-- What stands between the items of a bracket. -/
structure Bracket where
  close : Char
  /-- Skips what may stand around items. -/
  skip : List Char → Option (List Char)
  /-- Whether a comma may stand before the closing bracket. -/
  trailingComma : Bool

/-- Items up to the closing bracket, at least one. -/
def items {α : Type} (b : Bracket) (item : Scanner α) : Nat → Scanner (List α)
  | 0, _ => none
  | fuel + 1, cs => do
    let (a, cs) ← item cs
    match ← b.skip cs with
    | [] => none
    | c :: rest =>
      if c = ',' then
        let rest ← b.skip rest
        if b.trailingComma && rest.head? == some b.close then some ([a], rest.tail)
        else
          let (as, rest) ← items b item fuel rest
          some (a :: as, rest)
      else if c = b.close then some ([a], rest)
      else none

/-- The items of a bracket, behind the opening one. -/
def bracketed {α : Type} (b : Bracket) (item : Scanner α) : Scanner (List α) := fun cs => do
  let cs ← b.skip cs
  if cs.head? == some b.close then some ([], cs.tail)
  else items b item cs.length cs

end Scanner

end PrintPath
