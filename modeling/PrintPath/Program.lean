import PrintPath.Block.Line

/-!
# Programs

A program is a text of lines. Every line that is not blank gives one item: a
block, or the fault for which the line was refused.
-/

namespace PrintPath

/-- What a line gives. -/
structure Item where
  result : Except Fault Block
  /-- Arguments that were left out of the block. -/
  skipped : List Fault := []

namespace Item

def ofBlock (b : Block) : Item :=
  { result := .ok b }

/-- The item on a line, if the line is not blank. -/
def ofLine? (strictness : Strictness) (n : Nat) (line : List Char) : Option Item :=
  match Line.parse strictness n line with
  | .ok none => none
  | .ok (some (b, skipped)) => some ⟨.ok b, skipped⟩
  | .error fault => some ⟨.error fault, []⟩

end Item

namespace Program

/-- The items of a program, in the order of its lines. -/
def items (strictness : Strictness) (program : String) : List Item :=
  ((Text.lines program.toList).zipIdx 1).filterMap fun (line, n) =>
    Item.ofLine? strictness n line

end Program

end PrintPath
