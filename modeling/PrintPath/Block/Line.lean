import PrintPath.Block.Basic
import PrintPath.Fault
import PrintPath.Policy
import PrintPath.Text.Blank

/-!
# Reading a line

A line is cut at its first semicolon. The words before it are a command and
its arguments, each a letter with a number behind it; without words the line
is blank. A strict reader refuses a line for its first malformed argument, a
lenient one leaves malformed arguments out and says so.
-/

namespace PrintPath

/-- The letter and the number of an argument. -/
def readArgument : List Char → Except Defect (Char × Float)
  | [] => .error .noLetter
  | letter :: number =>
    if !letter.isAlpha then .error .noLetter
    else if number = [] then .error .noValue
    else match Number.readFloat number with
      | none => .error .notANumber
      | some v => if v.isFinite then .ok (letter.toLower, v) else .error .notFinite

namespace Line

/-- The part of a line before its comment. -/
def code (line : List Char) : List Char :=
  line.takeWhile (· ≠ ';')

/-- The words of a line: the command, then the arguments. -/
def codeWords (line : List Char) : List (List Char) :=
  Text.words (code line)

/-- The fault of a malformed argument. -/
def argumentFault (n : Nat) (word : List Char) (defect : Defect) : Fault :=
  .malformedArgument n (String.ofList word) defect

/-- Adds an argument to a block, which comes with the faults of the arguments that
were left out of it. -/
def addArgument (strictness : Strictness) (n : Nat) :
    Block × List Fault → List Char → Except Fault (Block × List Fault)
  | (b, skipped), word =>
    match readArgument word with
    | .ok (letter, v) => .ok (b.withArgument letter v, skipped)
    | .error defect =>
      match strictness with
      | .strict => .error (argumentFault n word defect)
      | .lenient => .ok (b, skipped ++ [argumentFault n word defect])

/-- The block on line number `n` with the faults of the arguments that were left out
of it, or `none` if the line is blank. -/
def parse (strictness : Strictness) (n : Nat) (line : List Char) :
    Except Fault (Option (Block × List Fault)) :=
  match codeWords line with
  | [] => .ok none
  | command :: arguments =>
    (arguments.foldlM (addArgument strictness n) (Block.bare (String.ofList command) n, [])).map
      some

/-- The block on line number `n`, or `none` if the line is blank. -/
def read (strictness : Strictness) (n : Nat) (line : List Char) :
    Except Fault (Option Block) :=
  (parse strictness n line).map (·.map Prod.fst)

end Line

end PrintPath
