import PrintPath.Document.Basic
import PrintPath.Document.Scan
import PrintPath.Number.Decimal

/-!
# TOML numbers, dates and flags

A value that starts with a sign or a digit is a date or a time, a float, or a
whole number, tried in this order. Whole numbers have 64 bits. A float may
not overflow upwards.
-/

namespace PrintPath.Toml

open PrintPath.Number

/-! ## Digits -/

/-- Digits of a kind, each of which may have an underscore before it. -/
def moreDigits (isDigit : Char → Bool) : List Char → List Char × List Char
  | [] => ([], [])
  | [c] => if isDigit c then ([c], []) else ([], [c])
  | c :: d :: rest =>
    if isDigit c then
      let (ds, rest) := moreDigits isDigit (d :: rest)
      (c :: ds, rest)
    else if c = '_' ∧ isDigit d then
      let (ds, rest) := moreDigits isDigit rest
      (d :: ds, rest)
    else ([], c :: d :: rest)

/-- At least one digit; underscores may stand between two digits. -/
def digitRun (isDigit : Char → Bool) : Scanner (List Char)
  | c :: rest =>
    if isDigit c then
      let (ds, rest) := moreDigits isDigit rest
      some (c :: ds, rest)
    else none
  | [] => none

/-- A whole number in decimal digits, without leading zeros. -/
def wholeDigits : Scanner (List Char)
  | '0' :: rest => some (['0'], rest)
  | cs => digitRun isDigit cs

/-! ## Whole numbers -/

def isOctalDigit (c : Char) : Bool :=
  '0' ≤ c && c ≤ '7'

def isBinaryDigit (c : Char) : Bool :=
  c == '0' || c == '1'

def isHexDigit (c : Char) : Bool :=
  (Scanner.hexDigit? c).isSome

/-- The number that digits write in a base. -/
def ofBase (base : Nat) (ds : List Char) : Nat :=
  ds.foldl (fun n c => base * n + (Scanner.hexDigit? c).getD 0) 0

/-- A whole number with a sign, if it has 64 bits. -/
def bounded (negative : Bool) (n : Nat) : Option Document :=
  let i : Int := if negative then -n else n
  if leastInt64 ≤ i ∧ i ≤ greatestInt64 then some (.integer i) else none

def integer : Scanner Document := fun cs => do
  let inBase (base : Nat) (isDigit : Char → Bool) (cs : List Char) := do
    let (ds, rest) ← digitRun isDigit cs
    some (← bounded false (ofBase base ds), rest)
  match cs with
  | '0' :: 'x' :: rest => inBase 16 isHexDigit rest
  | '0' :: 'o' :: rest => inBase 8 isOctalDigit rest
  | '0' :: 'b' :: rest => inBase 2 isBinaryDigit rest
  | _ => do
    let (negative, body) := takeSign cs
    let (ds, rest) ← wholeDigits body
    some (← bounded negative (ofDigits ds), rest)

/-! ## Floats -/

/-- The digits behind a point, if there is one. -/
def fraction : Scanner (Option (List Char))
  | '.' :: cs => (digitRun isDigit cs).map fun (ds, rest) => (some ds, rest)
  | cs => some (none, cs)

/-- The power of ten, if there is one. -/
def exponent : Scanner (Option Int)
  | c :: cs =>
    if c = 'e' ∨ c = 'E' then do
      let (negative, cs) := takeSign cs
      let (ds, rest) ← digitRun isDigit cs
      some (some (if negative then -(ofDigits ds : Int) else ofDigits ds), rest)
    else some (none, c :: cs)
  | [] => some (none, [])

/-- A float in digits: with a point, a power of ten, or both. -/
def digitFloat : Scanner Float := fun cs => do
  let (negative, cs) := takeSign cs
  let (whole, cs) ← wholeDigits cs
  let (fraction, cs) ← fraction cs
  let (exponent, cs) ← exponent cs
  if fraction.isNone && exponent.isNone then none
  else
    let behind := fraction.getD []
    let d : Decimal := ⟨ofDigits (whole ++ behind), exponent.getD 0 - behind.length⟩
    let x := withSign negative d.toFloat
    if x.isInf && !negative then none else some (x, cs)

/-- An infinity or an undefined value. -/
def namedFloat : Scanner Float := fun cs =>
  let (negative, cs) := takeSign cs
  match cs with
  | 'i' :: 'n' :: 'f' :: rest =>
    some (withSign negative (Float.ofBits 0x7ff0000000000000), rest)
  | 'n' :: 'a' :: 'n' :: rest => some (Float.ofBits 0x7ff8000000000000, rest)
  | _ => none

def float : Scanner Float := fun cs =>
  (digitFloat cs).or (namedFloat cs)

/-! ## Dates and times -/

/-- A number of exactly `count` digits between two bounds. -/
def field (count low high : Nat) : Scanner Nat := fun cs =>
  let ds := cs.take count
  let n := ofDigits ds
  if ds.length = count ∧ ds.all isDigit ∧ low ≤ n ∧ n ≤ high then some (n, cs.drop count)
  else none

def daysOf (year month : Nat) : Nat :=
  if month = 2 then
    if year % 4 = 0 ∧ (year % 100 ≠ 0 ∨ year % 400 = 0) then 29 else 28
  else if month ∈ [4, 6, 9, 11] then 30
  else 31

/-- What is left after a date of the calendar. -/
def date? (cs : List Char) : Option (List Char) := do
  let (year, cs) ← field 4 0 9999 cs
  let cs ← Scanner.after? ['-'] cs
  let (month, cs) ← field 2 1 12 cs
  let cs ← Scanner.after? ['-'] cs
  let (_, cs) ← field 2 1 (daysOf year month) cs
  some cs

/-- What is left after a time of day, which may be a leap second and may have
a fraction. -/
def time? (cs : List Char) : Option (List Char) := do
  let (_, cs) ← field 2 0 23 cs
  let cs ← Scanner.after? [':'] cs
  let (_, cs) ← field 2 0 59 cs
  let cs ← Scanner.after? [':'] cs
  let (_, cs) ← field 2 0 60 cs
  match cs with
  | '.' :: rest =>
    if rest.takeWhile isDigit = [] then some cs else some (rest.dropWhile isDigit)
  | _ => some cs

/-- What is left after the offset of a time zone. -/
def offset? : List Char → Option (List Char)
  | c :: cs =>
    if c = 'Z' ∨ c = 'z' then some cs
    else if c = '+' ∨ c = '-' then do
      let (_, cs) ← field 2 0 23 cs
      let cs ← Scanner.after? [':'] cs
      let (_, cs) ← field 2 0 59 cs
      some cs
    else none
  | [] => none

/-- What is left after a date, a time, or both. -/
def dateTime? (cs : List Char) : Option (List Char) :=
  match date? cs with
  | none => time? cs
  | some [] => some []
  | some (c :: rest) =>
    if c = 'T' ∨ c = 't' ∨ c = ' ' then
      match time? rest with
      | some rest => some ((offset? rest).getD rest)
      | none => some (c :: rest)
    else some (c :: rest)

/-- A date stands as a table with one member of a reserved name. So it may
stand for a structure, all of whose fields are then missing. -/
def dateDocument : Document :=
  .table [("$datetime", .unreadable)]

/-! ## All of them -/

def number : Scanner Document := fun cs =>
  match dateTime? cs with
  | some rest => some (dateDocument, rest)
  | none =>
    match float cs with
    | some (x, rest) => some (.float x, rest)
    | none => integer cs

/-- A value that is neither a string nor nested. -/
def scalar : Scanner Document
  | [] => none
  | c :: rest =>
    if c = 't' then (Scanner.after? ['r', 'u', 'e'] rest).map (.bool true, ·)
    else if c = 'f' then (Scanner.after? ['a', 'l', 's', 'e'] rest).map (.bool false, ·)
    else if c = 'i' ∨ c = 'n' then
      (namedFloat (c :: rest)).map fun (x, rest) => (.float x, rest)
    else if isDigit c ∨ c = '+' ∨ c = '-' then number (c :: rest)
    else none

end PrintPath.Toml
