import PrintPath.Document.Scan
import PrintPath.Text.Alphanumeric
import PrintPath.Text.Blank

/-!
# Patterns

A log filter may ask that the value of a field matches a regular expression.
Only the fields of spans are asked for their values, and there are no spans.
All that a run shows of a pattern is thus whether it is well formed: groups
and classes are closed, a repetition has something to repeat, a range ascends,
an escape is known, and nothing is nested too deep. A pattern in a filter
cannot hold a comma, an equals sign or a closing brace, hence no count in
braces. It describes text, so without the Unicode mode its classes hold ASCII
alone, and Unicode word boundaries are refused.
-/

namespace PrintPath.LogPattern

/-- The modes that matter for the form of a pattern. -/
structure Modes where
  /-- Classes and boundaries are those of Unicode. -/
  unicode : Bool := true
  /-- Blanks and comments are passed over. -/
  spaced : Bool := false
deriving DecidableEq, Repr

/-! ## Blanks and comments -/

/-- The text behind blanks and comments. -/
def skipSpaced : (inComment : Bool) → List Char → List Char
  | _, [] => []
  | true, c :: rest => skipSpaced (c != '\n') rest
  | false, c :: rest =>
    if Text.isBlank c then skipSpaced false rest
    else if c = '#' then skipSpaced true rest
    else c :: rest

def Modes.skip (m : Modes) (cs : List Char) : List Char :=
  if m.spaced then skipSpaced false cs else cs

/-- The character ahead of a place, behind blanks. Of a comment only the first
sign and the blanks after it are passed over. -/
def Modes.peek (m : Modes) (cs : List Char) : Option Char :=
  if m.spaced then
    match cs.dropWhile Text.isBlank with
    | '#' :: rest => (rest.dropWhile Text.isBlank).head?
    | rest => rest.head?
  else cs.head?

/-! ## Nesting -/

/-- How deep a pattern may be nested. -/
def depthLimit : Nat :=
  250

/-- The depth of parts that stand together. A single part stands for itself;
several are held together by a level of their own. -/
def joined : List Nat → Nat
  | [] => 0
  | [depth] => depth
  | depths => depths.foldl Nat.max 0 + 1

/-! ## Escapes -/

/-- What stands for one place of a pattern. -/
inductive Item where
  | literal (c : Char)
  /-- A class of characters with a name. -/
  | named
  /-- A condition on the place. -/
  | assertion
deriving DecidableEq, Repr

/-- So many hexadecimal digits. -/
def readHex (m : Modes) : Nat → Scanner (List Char)
  | 0, cs => some ([], cs)
  | n + 1, cs =>
    match m.skip cs with
    | [] => none
    | c :: rest => (readHex m n rest).map fun (ds, rest) => (c :: ds, rest)

/-- A character by its code point, given in so many hexadecimal digits. -/
def readCodePoint (m : Modes) (digits : Nat) : Scanner Char := fun cs => do
  let (ds, rest) ← readHex m digits cs
  return (← Scanner.codePoint? ds, rest)

def isAscii (c : Char) : Bool :=
  c.toNat < 0x80

/-- The letters of the Unicode general categories. -/
def isCategory (c : Char) : Bool :=
  c.toUpper ∈ ['C', 'L', 'M', 'N', 'P', 'S', 'Z']

/-- Whether a backslash before a character makes it stand for itself. -/
def isEscapable (c : Char) : Bool :=
  isAscii c && !c.isAlphanum && c != '<' && c != '>'

/-- What a backslash and the text behind it stand for. -/
def readEscape (m : Modes) : Scanner Item
  | [] => none
  | 'x' :: rest => do
    let (c, rest) ← readCodePoint m 2 rest
    if m.unicode || isAscii c then some (.literal c, rest) else none
  | 'u' :: rest => (readCodePoint m 4 rest).map fun (c, rest) => (.literal c, rest)
  | 'U' :: rest => (readCodePoint m 8 rest).map fun (c, rest) => (.literal c, rest)
  | c :: rest =>
    if c ∈ ['p', 'P'] then
      match m.skip rest with
      | category :: rest => if m.unicode && isCategory category then some (.named, rest) else none
      | [] => none
    else if c ∈ ['d', 's', 'w'] then some (.named, rest)
    else if c ∈ ['D', 'S', 'W'] then if m.unicode then some (.named, rest) else none
    else if c ∈ ['A', 'z'] then some (.assertion, rest)
    else if c ∈ ['b', 'B', '<', '>'] then if m.unicode then none else some (.assertion, rest)
    else if c ∈ ['a', 'f', 'n', 'r', 't', 'v'] then some (.literal (controlCharacter c), rest)
    else if isEscapable c then some (.literal c, rest)
    else none
where
  /-- The control characters that have a letter. -/
  controlCharacter : Char → Char
    | 'a' => '\x07'
    | 'f' => '\x0c'
    | 'n' => '\n'
    | 'r' => '\r'
    | 't' => '\t'
    | _ => '\x0b'

/-! ## Classes in brackets -/

/-- A character of a class or an escape. -/
def readClassItem (m : Modes) (cs : List Char) : Option (Item × List Char) := do
  let (item, rest) ← match cs with
    | [] => none
    | '\\' :: rest => readEscape m rest
    | c :: rest => some (.literal c, rest)
  match item with
  | .assertion => none
  | .named => some (.named, rest)
  | .literal c => if m.unicode || isAscii c then some (.literal c, rest) else none

/-- The text behind an item of a class or a range. A dash before the end of
the class or before another dash makes no range. -/
def skipRange (m : Modes) (cs : List Char) : Option (List Char) := do
  let (first, rest) ← readClassItem m cs
  match m.skip rest with
  | '-' :: after =>
    if m.peek after ∈ [some ']', some '-'] then some ('-' :: after)
    else
      let (last, rest) ← readClassItem m (m.skip after)
      match first, last with
      | .literal low, .literal high => if low ≤ high then some rest else none
      | _, _ => none
  | rest => some rest

def classNames : List String :=
  ["alnum", "alpha", "ascii", "blank", "cntrl", "digit", "graph", "lower", "print", "punct",
   "space", "upper", "word", "xdigit"]

/-- A class by its name between colons, behind the opening bracket, and whether
it is negated. With another name it is a class of the characters that it
lists. -/
def readClassName : List Char → Option (Bool × List Char)
  | ':' :: cs =>
    let (negated, cs) := match cs with
      | '^' :: rest => (true, rest)
      | rest => (false, rest)
    match cs.dropWhile (· != ':') with
    | ':' :: ']' :: rest =>
      if String.ofList (cs.takeWhile (· != ':')) ∈ classNames then some (negated, rest) else none
    | _ => none
  | _ => none

/-- How far a class is read. -/
structure ClassLevel where
  /-- The depth of what the last doubled sign joins to the items. -/
  left : Option Nat := none
  /-- The depths of the items behind it. -/
  items : List Nat := []
deriving DecidableEq, Repr

def ClassLevel.depth (l : ClassLevel) : Nat :=
  match l.left with
  | none => joined l.items
  | some depth => Nat.max depth (joined l.items) + 1

def ClassLevel.add (l : ClassLevel) (depth : Nat) : ClassLevel :=
  { l with items := depth :: l.items }

/-- Dashes with blanks between them, as items of a class. -/
def readDashes (m : Modes) : (fuel : Nat) → List Char → List Nat × List Char
  | fuel + 1, '-' :: rest =>
    let (items, rest) := readDashes m fuel (m.skip rest)
    (0 :: items, rest)
  | _, rest => ([], rest)

/-- The beginning of a class behind its opening bracket: a negation, then
dashes or a closing bracket that stand for themselves. -/
def openClass (m : Modes) (cs : List Char) : Option (ClassLevel × List Char) :=
  let (negated, cs) := match m.skip cs with
    | '^' :: rest => (true, m.skip rest)
    | rest => (false, rest)
  if negated && !m.unicode then none
  else match readDashes m cs.length cs with
    | ([], ']' :: rest) => some ({ items := [0] }, rest)
    | (items, rest) => some ({ items }, rest)

/-- The rest of a class, within the classes that are open around it: its depth
and the text behind it. Doubled signs join what is before and behind them. -/
def closeClass (m : Modes) : (fuel : Nat) → (here : ClassLevel) → (outer : List ClassLevel) →
    List Char → Option (Nat × List Char)
  | 0, _, _, _ => none
  | fuel + 1, here, outer, cs =>
    let join := closeClass m fuel { left := some here.depth } outer
    match m.skip cs with
    | [] => none
    | ']' :: rest =>
      match outer with
      | [] => some (here.depth + 1, rest)
      | around :: outer => closeClass m fuel (around.add (here.depth + 1)) outer rest
    | '[' :: rest =>
      match readClassName rest with
      | some (negated, rest) =>
        if negated && !m.unicode then none else closeClass m fuel (here.add 0) outer rest
      | none => do
        let (inner, rest) ← openClass m rest
        closeClass m fuel inner (here :: outer) rest
    | '&' :: '&' :: rest => join rest
    | '-' :: '-' :: rest => join rest
    | '~' :: '~' :: rest => join rest
    | rest => (skipRange m rest).bind (closeClass m fuel (here.add 0) outer)

/-- A class behind its opening bracket: its depth and the text behind it. -/
def readClass (m : Modes) (cs : List Char) : Option (Nat × List Char) := do
  let (start, cs) ← openClass m cs
  closeClass m (cs.length + 1) start [] cs

/-! ## Groups -/

/-- A part of a sequence. -/
inductive Part where
  /-- Flags that stand alone, which cannot be repeated. -/
  | flags
  | term (depth : Nat)
deriving DecidableEq, Repr

def Part.depth : Part → Nat
  | flags => 0
  | term depth => depth

/-- How far a group, or the whole pattern, is read. -/
structure Level where
  modes : Modes := {}
  /-- The depths of the alternatives that are complete. -/
  alternatives : List Nat := []
  /-- The parts of the last alternative, the last one in front. -/
  parts : List Part := []
deriving DecidableEq, Repr

namespace Level

def lastDepth (l : Level) : Nat :=
  joined (l.parts.map Part.depth)

def depth (l : Level) : Nat :=
  joined (l.lastDepth :: l.alternatives)

def add (l : Level) (p : Part) : Level :=
  { l with parts := p :: l.parts }

/-- Starts another alternative. -/
def branch (l : Level) : Level :=
  { l with alternatives := l.lastDepth :: l.alternatives, parts := [] }

/-- Repeats the last part, if there is one. -/
def repeatLast (l : Level) : Option Level :=
  match l.parts with
  | .term depth :: parts => some { l with parts := .term (depth + 1) :: parts }
  | _ => none

end Level

/-- How far a pattern is read. -/
structure State where
  here : Level := {}
  /-- The levels around it, the inner ones first. -/
  outer : List Level := []
  /-- The names of groups. -/
  names : List (List Char) := []
deriving DecidableEq, Repr

def State.modes (s : State) : Modes :=
  s.here.modes

def State.add (s : State) (p : Part) : State :=
  { s with here := s.here.add p }

/-- Opens a group, which may have modes of its own. -/
def State.inGroup (s : State) (modes : Modes) : State :=
  { s with here := { modes }, outer := s.here :: s.outer }

/-- Closes the innermost group. The modes are again those around it. -/
def State.outOfGroup (s : State) : Option State :=
  match s.outer with
  | [] => none
  | around :: outer => some { s with here := around.add (.term (s.here.depth + 1)), outer }

def isGroupName : List Char → Bool
  | [] => false
  | c :: rest =>
    (c == '_' || Text.isAlphabetic c) &&
      rest.all fun c => c ∈ ['_', '.', '[', ']'] || Text.isAlphanumeric c

/-- The modes that flags set: those before a dash are switched on, those
behind it off. -/
def readFlags (m : Modes) (flags : List Char) : Option Modes :=
  let on := flags.takeWhile (· != '-')
  let off := (flags.dropWhile (· != '-')).tail
  let set (flag : Char) (old : Bool) : Bool := flag ∈ on || (flag ∉ off && old)
  if (on ++ off).all (· ∈ ['i', 'm', 's', 'U', 'u', 'R', 'x']) && (on ++ off).Nodup
      && flags.getLast? != some '-' then
    some ⟨set 'u' m.unicode, set 'x' m.spaced⟩
  else none

/-- A group with a name. -/
def openNamed (s : State) (cs : List Char) : Option (State × List Char) :=
  let name := cs.takeWhile (· != '>')
  match cs.dropWhile (· != '>') with
  | [] => none
  | _ :: rest =>
    if isGroupName name && name ∉ s.names then
      some ({ s.inGroup s.modes with names := name :: s.names }, rest)
    else none

/-- What follows an opening parenthesis. Flags may stand alone in it and then
hold to the end of the group around them. -/
def openGroup (s : State) (cs : List Char) : Option (State × List Char) :=
  match s.modes.skip cs with
  | '?' :: 'P' :: '<' :: rest => openNamed s rest
  | '?' :: '<' :: rest => openNamed s rest
  | '?' :: rest => do
    let isEnd (c : Char) : Bool := c == ':' || c == ')'
    let flags := rest.takeWhile (!isEnd ·)
    let modes ← readFlags s.modes flags
    match rest.dropWhile (!isEnd ·) with
    | ':' :: rest => some (s.inGroup modes, rest)
    | _ :: rest =>
      if flags = [] then none
      else some ({ s with here := { s.here with modes }.add .flags }, rest)
    | [] => none
  | rest => some (s.inGroup s.modes, rest)

/-! ## Patterns -/

/-- Reads one thing that starts with a given character. -/
def step (s : State) (c : Char) (rest : List Char) : Option (State × List Char) :=
  let single (rest : List Char) := (s.add (.term 0), rest)
  if c = '(' then openGroup s rest
  else if c = ')' then s.outOfGroup.map (·, rest)
  else if c = '|' then some ({ s with here := s.here.branch }, rest)
  else if c = '[' then
    (readClass s.modes rest).map fun (depth, rest) => (s.add (.term depth), rest)
  else if c ∈ ['?', '*', '+'] then
    s.here.repeatLast.map fun here =>
      ({ s with here }, if rest.head? = some '?' then rest.tail else rest)
  else if c = '\x7b' then none
  else if c = '\\' then (readEscape s.modes rest).map fun (_, rest) => single rest
  else if c = '.' then if s.modes.unicode then some (single rest) else none
  else some (single rest)

def readFrom (s : State) : (fuel : Nat) → List Char → Bool
  | 0, _ => false
  | fuel + 1, cs =>
    match s.modes.skip cs with
    | [] => s.outer = [] && s.here.depth ≤ depthLimit
    | c :: rest =>
      match step s c rest with
      | none => false
      | some (s, rest) => readFrom s fuel rest

def wellFormed (cs : List Char) : Bool :=
  readFrom {} (cs.length + 1) cs

end PrintPath.LogPattern
