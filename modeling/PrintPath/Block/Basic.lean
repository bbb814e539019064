import PrintPath.Axis
import PrintPath.Number.Text
import PrintPath.Block.Arguments

/-!
# Blocks

A block is one line of a program: a command and its arguments. Letters are
kept in lower case, and a later argument with the same letter replaces an
earlier one.
-/

namespace PrintPath

structure Block where
  command : String
  arguments : Arguments
  line : Nat
deriving DecidableEq

namespace Block

/-- A block without arguments. -/
def bare (command : String) (line : Nat) : Block :=
  ⟨command, .empty, line⟩

def withArgument (b : Block) (letter : Char) (v : Float) : Block :=
  { b with arguments := b.arguments.insert letter.toLower v }

def argument (b : Block) (letter : Char) : Option Float :=
  b.arguments.get? letter.toLower

def axis (b : Block) (a : Axis) : Option Float :=
  b.argument a.letter

def hasAnyAxis (b : Block) : Bool :=
  Axis.all.any fun a => (b.axis a).isSome

/-- An argument as it is written: the letter in upper case and the number. -/
def argumentText (e : Char × Float) : List Char :=
  e.1.toUpper :: Number.plain e.2

/-- The block as a line, with its arguments in the order of their letters. -/
def text (b : Block) : String :=
  b.command ++ String.ofList (b.arguments.entries.flatMap fun e => ' ' :: argumentText e)

end Block

end PrintPath
