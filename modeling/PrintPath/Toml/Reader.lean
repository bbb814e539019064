import PrintPath.Toml.Scalar
import PrintPath.Toml.Table
import PrintPath.Toml.Text

/-!
# Reading TOML

The grammar of TOML 1.0. A text is a sequence of lines, each with a header, a
key and its value, or neither.
-/

namespace PrintPath.Toml

/-- The path of a dotted key, and its last part. -/
def splitKey (parts : List String) : Option (List String × String) :=
  parts.getLast?.map (parts.dropLast, ·)

/-- A key, an equals sign and a value. -/
def keyValue (value : Scanner Document) : Scanner (List String × String × Document) := fun cs => do
  let (parts, cs) ← key cs
  let (path, last) ← splitKey parts
  let cs ← Scanner.after? ['='] cs
  let (d, cs) ← value (skip cs)
  some ((path, last, d), cs)

/-- An array may go over several lines. -/
def arrayBracket : Scanner.Bracket :=
  { close := ']', skip := skipLines false, trailingComma := true }

/-- A table in braces is on one line. -/
def tableBracket : Scanner.Bracket :=
  { close := '\x7d', skip := fun cs => some (skip cs), trailingComma := false }

/-- A value that starts at the front of the text, with at most `depth` arrays
and tables around any part of it. -/
def value : (depth : Nat) → Scanner Document
  | _, [] => none
  | depth, c :: rest =>
    if c = '"' ∨ c = '\'' then
      (string (c :: rest)).map fun (s, rest) => (.text s, rest)
    else if c = '[' then
      match depth with
      | 0 => none
      | depth + 1 => do
        let (items, rest) ← Scanner.bracketed arrayBracket (value depth) rest
        some (.list items, rest)
    else if c = '\x7b' then
      match depth with
      | 0 => none
      | depth + 1 => do
        let (entries, rest) ← Scanner.bracketed tableBracket (keyValue (value depth)) rest
        some (← ofEntries entries, rest)
    else scalar (c :: rest)

/-- A header, behind its first bracket. -/
def header : Scanner Statement
  | '[' :: cs => do
    let (parts, cs) ← key cs
    let (path, last) ← splitKey parts
    some (.arrayHeader path last, ← Scanner.after? [']', ']'] cs)
  | cs => do
    let (parts, cs) ← key cs
    let (path, last) ← splitKey parts
    some (.header path last, ← Scanner.after? [']'] cs)

/-- A line with a statement, but not its end. -/
def statement : Scanner Statement
  | '[' :: cs => header cs
  | cs => do
    let ((path, last, d), cs) ← keyValue (value (depthLimit - 1)) cs
    some (.entry path last d, cs)

/-- All statements of a text. Every round takes at least a line break off, or
the text ends. -/
def statements : Nat → List Char → Option (List Statement)
  | _, [] => some []
  | 0, _ => none
  | fuel + 1, cs =>
    match lineEnd? cs with
    | some rest => statements fuel rest
    | none => do
      let (s, rest) ← statement (skip cs)
      let rest ← lineEnd? rest
      let ss ← statements fuel rest
      some (s :: ss)

/-- A byte order mark in front of a text does not count. -/
def dropMark : List Char → List Char
  | '\ufeff' :: cs => cs
  | cs => cs

/-- The table of a TOML text. -/
def read (s : String) : Option Document := do
  let cs := dropMark s.toList
  ofStatements (← statements cs.length cs)

/-- A structure may be an array, whatever follows its last field; an
alternative may be a table with an empty value. -/
def convention : Document.Convention :=
  { extraItems := true
    isUnit := fun d => match d with
      | .list [] => true
      | .table [] => true
      | _ => false }

end PrintPath.Toml
