import PrintPath.Proofs.Program.Lines
import PrintPath.Proofs.Text.Words

/-!
# Lines further down

A line gives the same wherever it stands in a program, but for its number. So the
items of two programs, one behind the other, are those of the first and then those
of the second, further down by the number of lines of the first.
-/

namespace PrintPath

/-- The fault on a line that is `k` lines further down. -/
def Fault.shift (k : Nat) : Fault → Fault
  | malformedArgument n word defect => malformedArgument (n + k) word defect
  | unknownCommand n command => unknownCommand (n + k) command
  | notFinite n quantity => notFinite (n + k) quantity

def Block.shift (k : Nat) (b : Block) : Block :=
  { b with line := b.line + k }

/-- What is read from a line that is `k` lines further down. -/
def shiftReading (k : Nat) : Except Fault Block → Except Fault Block
  | .ok b => .ok (b.shift k)
  | .error fault => .error (fault.shift k)

/-- The item on a line that is `k` lines further down. -/
def Item.shift (k : Nat) (item : Item) : Item where
  result := shiftReading k item.result
  skipped := item.skipped.map (Fault.shift k)

namespace Line

section Words

variable (k n : Nat)

theorem addStrictly_shift (b : Block) (arguments : List (List Char)) :
    addStrictly (n + k) (b.shift k) arguments = shiftReading k (addStrictly n b arguments) := by
  induction arguments generalizing b with
  | nil => rfl
  | cons word rest ih =>
      cases given : readArgument word with
      | ok argument =>
          rw [addStrictly_cons_of_ok given, addStrictly_cons_of_ok given]
          exact ih (b.withArgument argument.1 argument.2)
      | error defect =>
          rw [addStrictly_cons_of_error given, addStrictly_cons_of_error given]
          rfl

theorem addLeniently_shift (b : Block) (arguments : List (List Char)) :
    addLeniently (b.shift k) arguments = (addLeniently b arguments).shift k := by
  induction arguments generalizing b with
  | nil => rfl
  | cons word rest ih =>
      cases given : readArgument word with
      | ok argument =>
          rw [addLeniently_cons_of_ok given, addLeniently_cons_of_ok given]
          exact ih (b.withArgument argument.1 argument.2)
      | error defect =>
          rw [addLeniently_cons_of_error given, addLeniently_cons_of_error given, ih]

theorem defects_shift (arguments : List (List Char)) :
    defects (n + k) arguments = (defects n arguments).map (Fault.shift k) := by
  unfold defects
  rw [List.map_filterMap]
  refine List.filterMap_congr fun word _ => ?_
  cases readArgument word <;> rfl

theorem skipped_shift (s : Strictness) (line : List Char) :
    skipped s (n + k) line = (skipped s n line).map (Fault.shift k) := by
  cases s with
  | strict => rfl
  | lenient => exact defects_shift k n (codeWords line).tail

end Words

end Line

namespace Item

/-- A line gives the same further down, but for its number. -/
theorem ofLine?_shift (s : Strictness) (k n : Nat) (line : List Char) :
    ofLine? s (n + k) line = (ofLine? s n line).map (shift k) := by
  rw [ofLine?_eq, ofLine?_eq, Line.read_eq, Line.read_eq, Line.skipped_shift]
  cases Line.codeWords line with
  | nil => rfl
  | cons command arguments =>
      have below : Block.bare (String.ofList command) (n + k) =
          (Block.bare (String.ofList command) n).shift k := rfl
      dsimp only
      rw [below]
      cases s with
      | strict =>
          dsimp only
          rw [Line.addStrictly_shift]
          cases Line.addStrictly n (.bare (String.ofList command) n) arguments <;> rfl
      | lenient =>
          dsimp only
          rw [Line.addLeniently_shift]
          rfl

end Item

namespace Program

/-- The lines behind a line feed keep their order and are numbered on. -/
theorem numbered_append (p q : String) :
    numbered (p ++ "\n" ++ q) =
      numbered p ++ (numbered q).map fun (line, n) => (line, n + (p.toList.count '\n' + 1)) := by
  have text : (p ++ "\n" ++ q).toList = p.toList ++ '\n' :: q.toList := by simp
  unfold numbered
  rw [text, Text.lines_append_feed, List.zipIdx_append, Text.length_lines]
  rw [Nat.add_comm 1, ← List.map_snd_add_zipIdx_eq_zipIdx]
  rfl

/-- Two programs in one give the items of the first, and then those of the second
further down. -/
theorem items_append (s : Strictness) (p q : String) :
    items s (p ++ "\n" ++ q) =
      items s p ++ (items s q).map (Item.shift (p.toList.count '\n' + 1)) := by
  rw [items_eq, numbered_append, itemsOn, List.filterMap_append, List.filterMap_map]
  congr 1
  rw [items_eq, itemsOn, List.map_filterMap]
  refine List.filterMap_congr fun line _ => ?_
  exact Item.ofLine?_shift s _ line.2 line.1

end Program

end PrintPath
