import PrintPath.Document.Scan
import PrintPath.Text.Pieces

/-!
# TOML text

White space, comments, line ends and the four kinds of string of TOML 1.0.
The tab is the only control character that may stand in a text as it is.
-/

namespace PrintPath.Toml

def isSpace (c : Char) : Bool :=
  c == ' ' || c == '\t'

def skip (cs : List Char) : List Char :=
  cs.dropWhile isSpace

/-- Whether a character may stand in a comment or a string. -/
def isPlain (c : Char) : Bool :=
  c == '\t' || (0x20 ≤ c.toNat && c != '\x7f')

/-- A line break: a line feed, or a carriage return and a line feed. -/
def lineBreak? : List Char → Option (List Char)
  | '\n' :: rest => some rest
  | '\r' :: '\n' :: rest => some rest
  | _ => none

/-- What follows a line break, or nothing at the end of the text. -/
def endOfLine? : List Char → Option (List Char)
  | [] => some []
  | cs => lineBreak? cs

/-- Skips the rest of a line, which may hold a comment but no value. -/
def lineEnd? (cs : List Char) : Option (List Char) :=
  match skip cs with
  | '#' :: rest => endOfLine? (rest.dropWhile isPlain)
  | rest => endOfLine? rest

/-- Skips white space, line breaks and comments inside of brackets. -/
def skipLines : Bool → List Char → Option (List Char)
  | inComment, [] => if inComment then none else some []
  | _, '\n' :: rest => skipLines false rest
  | _, '\r' :: '\n' :: rest => skipLines false rest
  | true, c :: rest => if isPlain c then skipLines true rest else none
  | false, c :: rest =>
    if isSpace c then skipLines false rest
    else if c = '#' then skipLines true rest
    else some (c :: rest)

/-! ## Strings -/

/-- The character behind a backslash, unless it is given by its code point. -/
def simpleEscape? : Char → Option Char
  | 'b' => some '\x08'
  | 't' => some '\t'
  | 'n' => some '\n'
  | 'f' => some '\x0c'
  | 'r' => some '\r'
  | '"' => some '"'
  | '\\' => some '\\'
  | _ => none

def consTo (c : Char) (r : List Char × List Char) : List Char × List Char :=
  (c :: r.1, r.2)

/-- A string on one line with escapes, behind its opening quote. -/
def basic : Scanner (List Char)
  | '"' :: rest => some ([], rest)
  | '\\' :: 'u' :: a :: b :: c :: d :: rest => do
    return consTo (← Scanner.codePoint? [a, b, c, d]) (← basic rest)
  | '\\' :: 'U' :: a :: b :: c :: d :: e :: f :: g :: h :: rest => do
    return consTo (← Scanner.codePoint? [a, b, c, d, e, f, g, h]) (← basic rest)
  | '\\' :: c :: rest => do
    return consTo (← simpleEscape? c) (← basic rest)
  | c :: rest => if isPlain c then (basic rest).map (consTo c) else none
  | [] => none

/-- A string on one line without escapes, behind its opening quote. -/
def literal : Scanner (List Char)
  | '\'' :: rest => some ([], rest)
  | c :: rest => if isPlain c then (literal rest).map (consTo c) else none
  | [] => none

/-- Whether a backslash before this text is followed by nothing on its line. -/
def endsLine (cs : List Char) : Bool :=
  (lineBreak? (skip cs)).isSome

/-- A string over several lines with escapes, behind its three opening quotes.
One or two quotes may stand anywhere, also before the closing three. A
backslash at the end of a line swallows the white space and line breaks that
follow, which is what the flag is for. -/
def longBasic : (swallow : Bool) → Scanner (List Char)
  | _, '"' :: '"' :: '"' :: '"' :: '"' :: rest => some (['"', '"'], rest)
  | _, '"' :: '"' :: '"' :: '"' :: rest => some (['"'], rest)
  | _, '"' :: '"' :: '"' :: rest => some ([], rest)
  | true, ' ' :: rest => longBasic true rest
  | true, '\t' :: rest => longBasic true rest
  | true, '\n' :: rest => longBasic true rest
  | true, '\r' :: '\n' :: rest => longBasic true rest
  | _, '\n' :: rest => (longBasic false rest).map (consTo '\n')
  | _, '\r' :: '\n' :: rest => (longBasic false rest).map (consTo '\n')
  | _, '\\' :: 'u' :: a :: b :: c :: d :: rest => do
    return consTo (← Scanner.codePoint? [a, b, c, d]) (← longBasic false rest)
  | _, '\\' :: 'U' :: a :: b :: c :: d :: e :: f :: g :: h :: rest => do
    return consTo (← Scanner.codePoint? [a, b, c, d, e, f, g, h]) (← longBasic false rest)
  | _, '\\' :: c :: rest =>
    if endsLine (c :: rest) then longBasic true (c :: rest)
    else do return consTo (← simpleEscape? c) (← longBasic false rest)
  | _, c :: rest => if isPlain c then (longBasic false rest).map (consTo c) else none
  | _, [] => none

/-- A string over several lines without escapes, behind its three opening
quotes. -/
def longLiteral : Scanner (List Char)
  | '\'' :: '\'' :: '\'' :: '\'' :: '\'' :: rest => some (['\'', '\''], rest)
  | '\'' :: '\'' :: '\'' :: '\'' :: rest => some (['\''], rest)
  | '\'' :: '\'' :: '\'' :: rest => some ([], rest)
  | '\n' :: rest => (longLiteral rest).map (consTo '\n')
  | '\r' :: '\n' :: rest => (longLiteral rest).map (consTo '\n')
  | c :: rest => if isPlain c then (longLiteral rest).map (consTo c) else none
  | [] => none

/-- A line break right behind three opening quotes does not count. -/
def dropLineBreak (cs : List Char) : List Char :=
  (lineBreak? cs).getD cs

/-- A string of any kind. -/
def string : Scanner String := fun cs => do
  let (s, rest) ← match cs with
    | '"' :: '"' :: '"' :: rest => longBasic false (dropLineBreak rest)
    | '\'' :: '\'' :: '\'' :: rest => longLiteral (dropLineBreak rest)
    | '"' :: rest => basic rest
    | '\'' :: rest => literal rest
    | _ => none
  some (String.ofList s, rest)

/-! ## Keys -/

def isBareKey (c : Char) : Bool :=
  c.isAlphanum || c == '-' || c == '_'

/-- One part of a key: bare, or a string on one line. -/
def simpleKey : Scanner String
  | '"' :: rest => (basic rest).map fun (s, rest) => (String.ofList s, rest)
  | '\'' :: rest => (literal rest).map fun (s, rest) => (String.ofList s, rest)
  | cs =>
    let s := cs.takeWhile isBareKey
    if s = [] then none else some (String.ofList s, cs.dropWhile isBareKey)

/-- The parts of a dotted key, with white space around each. -/
def keyParts : Nat → Scanner (List String)
  | 0, _ => none
  | fuel + 1, cs => do
    let (part, rest) ← simpleKey (skip cs)
    match skip rest with
    | '.' :: rest =>
      let (parts, rest) ← keyParts fuel rest
      some (part :: parts, rest)
    | rest => some ([part], rest)

/-- How deep values and keys may be nested. -/
def depthLimit : Nat :=
  80

def key : Scanner (List String) := fun cs => do
  let (parts, rest) ← keyParts cs.length cs
  if parts.length < depthLimit then some (parts, rest) else none

end PrintPath.Toml
