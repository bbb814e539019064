import PrintPath.Json.Number

/-!
# Reading JSON

The grammar of RFC 8259, with nothing before or after the value but white
space. Every part of a text has to be well-formed, also the parts that nobody
reads; a number beyond the doubles or half of a surrogate pair only harms the
value that holds it.
-/

namespace PrintPath.Json

def isSpace (c : Char) : Bool :=
  c == ' ' || c == '\t' || c == '\n' || c == '\r'

def skip (cs : List Char) : List Char :=
  cs.dropWhile isSpace

/-! ## Strings -/

/-- The character behind a backslash, `u` apart. -/
def simpleEscape? : Char → Option Char
  | '"' => some '"'
  | '\\' => some '\\'
  | '/' => some '/'
  | 'b' => some '\x08'
  | 'f' => some '\x0c'
  | 'n' => some '\n'
  | 'r' => some '\r'
  | 't' => some '\t'
  | _ => none

/-- The code units of a string, behind its opening quote. A character counts
as one unit, whatever its size. -/
def units : Scanner (List Nat)
  | '"' :: rest => some ([], rest)
  | '\\' :: 'u' :: a :: b :: c :: d :: rest => do
    let n ← Scanner.ofHex? [a, b, c, d]
    let (ns, rest) ← units rest
    some (n :: ns, rest)
  | '\\' :: c :: rest => do
    let e ← simpleEscape? c
    let (ns, rest) ← units rest
    some (e.toNat :: ns, rest)
  | c :: rest =>
    if c.toNat < 0x20 then none
    else do
      let (ns, rest) ← units rest
      some (c.toNat :: ns, rest)
  | [] => none

def isHighSurrogate (n : Nat) : Bool :=
  0xd800 ≤ n && n < 0xdc00

def isLowSurrogate (n : Nat) : Bool :=
  0xdc00 ≤ n && n < 0xe000

/-- Joins surrogate pairs; half a pair is refused. -/
def joinUnits : List Nat → Option (List Char)
  | [] => some []
  | n :: rest =>
    if isHighSurrogate n then
      match rest with
      | m :: rest =>
        if isLowSurrogate m then
          (joinUnits rest).map (Char.ofNat (0x10000 + (n - 0xd800) * 0x400 + (m - 0xdc00)) :: ·)
        else none
      | [] => none
    else if isLowSurrogate n then none
    else (joinUnits rest).map (Char.ofNat n :: ·)

/-- A string, behind its opening quote; `none` inside if it holds half a
surrogate pair. -/
def string : Scanner (Option String) := fun cs => do
  let (ns, rest) ← units cs
  some ((joinUnits ns).map String.ofList, rest)

/-! ## Values -/

/-- Braces and brackets, with white space around their items. -/
def bracket (close : Char) : Scanner.Bracket :=
  { close := close, skip := fun cs => some (skip cs), trailingComma := false }

/-- A member of an object: its name, a colon and its value. -/
def member (value : Scanner Document) : Scanner (Option String × Document)
  | '"' :: cs => do
    let (name, cs) ← string cs
    match skip cs with
    | ':' :: cs =>
      let (d, cs) ← value (skip cs)
      some ((name, d), cs)
    | _ => none
  | _ => none

/-- An object of given members. Without its names it cannot be read. -/
def ofMembers (members : List (Option String × Document)) : Document :=
  match members.mapM fun (name, d) => name.map (·, d) with
  | some ms => .table ms
  | none => .unreadable

/-- A value that starts at the front of the text, with at most `depth` arrays
and objects around any part of it. -/
def value : (depth : Nat) → Scanner Document
  | _, [] => none
  | depth, c :: rest =>
    if c = '"' then do
      let (s, rest) ← string rest
      some ((s.map Document.text).getD .unreadable, rest)
    else if c = '[' then
      match depth with
      | 0 => none
      | depth + 1 => do
        let (items, rest) ← Scanner.bracketed (bracket ']') (value depth) rest
        some (.list items, rest)
    else if c = '\x7b' then
      match depth with
      | 0 => none
      | depth + 1 => do
        let (members, rest) ← Scanner.bracketed (bracket '\x7d') (member (value depth)) rest
        some (ofMembers members, rest)
    else if c = 't' then (Scanner.after? ['r', 'u', 'e'] rest).map (.bool true, ·)
    else if c = 'f' then (Scanner.after? ['a', 'l', 's', 'e'] rest).map (.bool false, ·)
    else if c = 'n' then (Scanner.after? ['u', 'l', 'l'] rest).map (.null, ·)
    else (numeral (c :: rest)).map fun (n, rest) => (n.toDocument, rest)

/-- The value of a JSON text. No text is nested deeper than it is long. -/
def read (s : String) : Option Document := do
  let cs := s.toList
  let (d, rest) ← value cs.length (skip cs)
  if skip rest = [] then some d else none

/-- A structure may be an array, an alternative an object with a null. -/
def convention : Document.Convention :=
  { extraItems := false
    isUnit := fun d => match d with
      | .null => true
      | _ => false }

end PrintPath.Json
