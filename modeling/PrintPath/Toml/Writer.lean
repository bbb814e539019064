import PrintPath.Document.Sections

/-!
# Writing TOML

Sections as tables with a blank line between them. A text with a line feed is
written over several lines, and any other text on one.
-/

namespace PrintPath.Toml

/-- A hexadecimal digit in upper case. -/
def hexDigit (n : Nat) : Char :=
  (Nat.digitChar (n % 16)).toUpper

/-- A character inside a string. Control characters are escaped, by a letter
if there is one for them; a line feed is kept if the string has several
lines. -/
def escape (keepLineFeed : Bool) (c : Char) : List Char :=
  if c = '\x08' then ['\\', 'b']
  else if c = '\t' then ['\\', 't']
  else if c = '\n' then if keepLineFeed then [c] else ['\\', 'n']
  else if c = '\x0c' then ['\\', 'f']
  else if c = '\r' then ['\\', 'r']
  else if c = '"' then ['\\', '"']
  else if c = '\\' then ['\\', '\\']
  else if c.toNat < 0x20 ∨ c = '\x7f' then
    ['\\', 'u', '0', '0', hexDigit (c.toNat / 16), hexDigit c.toNat]
  else [c]

/-- A text as a string on one line. -/
def quote (cs : List Char) : List Char :=
  '"' :: cs.flatMap (escape false) ++ ['"']

/-- A text as a string over several lines, which starts on its second one. -/
def longQuote (cs : List Char) : List Char :=
  ['"', '"', '"', '\n'] ++ cs.flatMap (escape true) ++ ['"', '"', '"']

def writeScalar : Scalar → List Char
  | .flag true => ['t', 'r', 'u', 'e']
  | .flag false => ['f', 'a', 'l', 's', 'e']
  | .text s => if '\n' ∈ s.toList then longQuote s.toList else quote s.toList

def writeEntry (e : String × Scalar) : List Char :=
  e.1.toList ++ [' ', '=', ' '] ++ writeScalar e.2 ++ ['\n']

def writeSection (s : String × Section) : List Char :=
  '[' :: s.1.toList ++ [']', '\n'] ++ s.2.flatMap writeEntry

/-- Sections whose names, and the names in them, are bare keys. -/
def write (ss : Sections) : String :=
  String.ofList (['\n'].intercalate (ss.map writeSection))

end PrintPath.Toml
