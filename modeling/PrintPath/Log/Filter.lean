import PrintPath.Log.Note
import PrintPath.Log.Pattern

/-!
# Log filters

A filter is a list of rules separated by commas. A rule names the least
severity that passes, for all messages or for those whose target starts with
a given text: `info`, `target`, `target=info`. In brackets it may ask for a
span or for a field of the message: `target[span]=info`, `[{field}]=info`. Of
the rules that apply to a message the one with the longest target decides;
without one the message is left out, so a filter without rules is silent.

Blanks around a rule are passed over when its parts are looked for, but the
parts are then cut out of the rule with its blanks. Leading blanks thus shift
the parts, and a cut may fall inside a character.
-/

namespace PrintPath

/-- The least severity that passes; `none` if nothing does. -/
abbrev Threshold := Option Severity

structure LogRule where
  /-- How the targets start that the rule is about. -/
  target : String := ""
  /-- A field that messages need to have. -/
  field : Option String := none
  /-- Whether the rule asks for a span or for the value of a field. There are
  no spans, and so it never applies. -/
  idle : Bool := false
  threshold : Threshold := some .trace
deriving DecidableEq, Repr

namespace LogRule

/-- Whether a rule is about a message. Messages have one field, their text. -/
def appliesTo (r : LogRule) (n : Note) : Bool :=
  !r.idle && r.target.toList.isPrefixOf n.speaker.target.toList && r.field.all (· == "message")

/-- How much a rule asks of a message. A longer target outweighs a field. -/
def weight (r : LogRule) : Nat :=
  2 * r.target.length + (if r.field.isSome then 1 else 0)

end LogRule

abbrev LogFilter := List LogRule

/-- Why a filter cannot be read. -/
inductive FilterFault where
  | malformed
  /-- A part of a rule starts or ends inside a character. -/
  | splitCharacter
deriving DecidableEq, Repr

namespace LogFilter

/-! ## Cutting rules -/

/-- How many bytes a text takes. -/
def bytes : List Char → Nat
  | [] => 0
  | c :: cs => c.utf8Size + bytes cs

/-- Cuts a text behind so many bytes, unless that is inside a character. -/
def splitBytes : Nat → List Char → Option (List Char × List Char)
  | 0, cs => some ([], cs)
  | _ + 1, [] => none
  | n + 1, c :: cs =>
    if c.utf8Size ≤ n + 1 then
      (splitBytes (n + 1 - c.utf8Size) cs).map fun (front, rest) => (c :: front, rest)
    else none

/-- The rest of a rule behind so many bytes. -/
def partFrom (rule : List Char) (start : Nat) : Except FilterFault (List Char) :=
  match splitBytes start rule with
  | some (_, rest) => .ok rest
  | none => .error .splitCharacter

/-- The part of a rule that starts behind so many bytes and takes so many. -/
def part (rule : List Char) (start size : Nat) : Except FilterFault (List Char) := do
  match splitBytes size (← partFrom rule start) with
  | some (front, _) => .ok front
  | none => .error .splitCharacter

/-! ## Reading rules -/

/-- A severity, or the word or number for silence. -/
def readThreshold (cs : List Char) : Option Threshold :=
  if Severity.sameLetters cs ['o', 'f', 'f'] ∨ Severity.readRank cs = some 0 then some none
  else (Severity.read cs).map some

/-- Ends a rule with a level. Without one it lets everything pass. -/
def withLevel (r : LogRule) (level : List Char) : Except FilterFault LogRule :=
  if level = [] then .ok r
  else match readThreshold level with
    | some threshold => .ok { r with threshold }
    | none => .error .malformed

/-- The end of a rule behind its brackets. -/
def readEnd (rule : List Char) (r : LogRule) (start : Nat) :
    List Char → Except FilterFault LogRule
  | [] => .ok r
  | '=' :: _ => do withLevel r (← partFrom rule (start + 1))
  | _ => .error .malformed

/-- A field, or a field and a value that it has: a number or a pattern. -/
def withField (r : LogRule) (cs : List Char) : Except FilterFault LogRule :=
  let isName (c : Char) : Bool := c != '='
  let named := { r with field := some (String.ofList (cs.takeWhile isName)) }
  match cs, cs.dropWhile isName with
  | [], _ => .error .malformed
  | _, [] => .ok named
  | _, _ :: rest =>
    let value := rest.takeWhile isName
    if (Number.readFloat value).isSome ∨ LogPattern.wellFormed value then
      .ok { named with idle := true }
    else .error .malformed

/-- A field in braces, behind the opening one. -/
def readField (rule : List Char) (r : LogRule) (start : Nat) (cs : List Char) :
    Except FilterFault LogRule := do
  let isField (c : Char) : Bool := c != '\x7d'
  let size := bytes (cs.takeWhile isField)
  match cs.dropWhile isField with
  | [] => .error .malformed
  | _ :: rest =>
    let r ← withField r (← part rule start size)
    match rest with
    | ']' :: rest => readEnd rule r (start + size + 2) rest
    | _ => .error .malformed

/-- The name of a span, or a field in braces, or both, behind the opening
bracket. -/
def readBracket (rule : List Char) (r : LogRule) (start : Nat) (cs : List Char) :
    Except FilterFault LogRule := do
  let isSpan (c : Char) : Bool := c != ']' && c != '\x7b'
  let size := bytes (cs.takeWhile isSpan)
  match cs.dropWhile isSpan with
  | [] => .error .malformed
  | c :: rest =>
    let span ← part rule start size
    if c = ']' then readEnd rule { r with idle := true } (start + size + 1) rest
    else readField rule { r with idle := span != [] } (start + size + 1) rest

/-- Whether a rule may start with this character. -/
def startsRule (c : Char) : Bool :=
  c == '_' || c == ':' || c == '-' || Text.isAlphanumeric c

/-- A level for all messages, or else a target of which everything passes. -/
def levelOrTarget (rule : List Char) : LogRule :=
  match readThreshold rule with
  | some threshold => { threshold }
  | none => { target := String.ofList rule }

def readRule (rule : List Char) : Except FilterFault LogRule := do
  let isTarget (c : Char) : Bool := c != '=' && c != '['
  let text := Text.trim rule
  if text.head? = some '[' then readBracket rule {} 1 text.tail
  else if !text.head?.any startsRule then .error .malformed
  else
    let size := bytes (text.takeWhile isTarget)
    match text.dropWhile isTarget with
    | [] => .ok (levelOrTarget rule)
    | c :: rest =>
      let r : LogRule := { target := String.ofList (← part rule 0 size) }
      if c = '=' then withLevel r (← partFrom rule (size + 1))
      else readBracket rule r (size + 1) rest

/-- A filter. The first rule that cannot be read spoils it. -/
def read (s : String) : Except FilterFault LogFilter :=
  ((Text.pieces (· == ',') s.toList).filter (!·.isEmpty)).mapM readRule

/-- A filter that treats all messages alike. -/
def ofSeverity (s : Severity) : LogFilter :=
  [{ threshold := some s }]

/-! ## Filtering -/

/-- The rule that decides about a message: the one with the longest target,
then one that asks for a field, then the last. -/
def ruleFor? (f : LogFilter) (n : Note) : Option LogRule :=
  (f.filter (·.appliesTo n)).foldl (fun best r =>
    match best with
    | none => some r
    | some b => if b.weight ≤ r.weight then some r else some b) none

def passes (f : LogFilter) (n : Note) : Bool :=
  match (f.ruleFor? n).bind LogRule.threshold with
  | some least => n.severity.rank ≤ least.rank
  | none => false

end LogFilter

end PrintPath
