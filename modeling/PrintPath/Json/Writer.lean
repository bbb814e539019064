import PrintPath.Document.Sections

/-!
# Writing JSON

Sections as an object of objects, with one member per line and two blanks for
each level.
-/

namespace PrintPath.Json

def hexDigit (n : Nat) : Char :=
  Nat.digitChar (n % 16)

/-- A character inside a string. Control characters are escaped, by a letter
if there is one for them. -/
def escape (c : Char) : List Char :=
  if c = '"' then ['\\', '"']
  else if c = '\\' then ['\\', '\\']
  else if c = '\x08' then ['\\', 'b']
  else if c = '\x0c' then ['\\', 'f']
  else if c = '\n' then ['\\', 'n']
  else if c = '\r' then ['\\', 'r']
  else if c = '\t' then ['\\', 't']
  else if c.toNat < 0x20 then
    ['\\', 'u', '0', '0', hexDigit (c.toNat / 16), hexDigit c.toNat]
  else [c]

def quote (cs : List Char) : List Char :=
  '"' :: cs.flatMap escape ++ ['"']

def writeScalar : Scalar → List Char
  | .flag true => ['t', 'r', 'u', 'e']
  | .flag false => ['f', 'a', 'l', 's', 'e']
  | .text s => quote s.toList

def indentation (level : Nat) : List Char :=
  '\n' :: List.replicate (2 * level) ' '

/-- An object whose members are on lines of their own. -/
def writeObject {α : Type} (level : Nat) (write : α → List Char)
    (members : List (String × α)) : List Char :=
  if members = [] then ['\x7b', '\x7d']
  else
    let lines := members.map fun (name, a) =>
      indentation (level + 1) ++ quote name.toList ++ [':', ' '] ++ write a
    '\x7b' :: [','].intercalate lines ++ indentation level ++ ['\x7d']

def write (ss : Sections) : String :=
  String.ofList (writeObject 0 (writeObject 1 writeScalar) ss)

end PrintPath.Json
