import PrintPath.Proofs.Block.Line
import PrintPath.Proofs.Text.Lines

/-!
# Numbered lines

The items of a program are those of its lines, numbered from one. A line can be
made empty without any other line losing its number.
-/

namespace PrintPath.Program

/-- The lines of a program with their numbers. -/
def numbered (program : String) : List (List Char × Nat) :=
  (Text.lines program.toList).zipIdx 1

/-- The items on some numbered lines. -/
def itemsOn (s : Strictness) (ls : List (List Char × Nat)) : List Item :=
  ls.filterMap fun (line, n) => Item.ofLine? s n line

theorem items_eq (s : Strictness) (program : String) :
    items s program = itemsOn s (numbered program) := rfl

theorem itemsOn_of_blank {s : Strictness} {line : List Char} {n : Nat}
    (h : Item.ofLine? s n line = none) (rest : List (List Char × Nat)) :
    itemsOn s ((line, n) :: rest) = itemsOn s rest :=
  List.filterMap_cons_none h

theorem itemsOn_of_item {s : Strictness} {line : List Char} {n : Nat} {item : Item}
    (h : Item.ofLine? s n line = some item) (rest : List (List Char × Nat)) :
    itemsOn s ((line, n) :: rest) = item :: itemsOn s rest :=
  List.filterMap_cons_some h

theorem numbers_numbered (program : String) :
    (numbered program).map Prod.snd = List.range' 1 (Text.lines program.toList).length := by
  unfold numbered
  rw [List.zipIdx_map_snd]

theorem ascending_numbered (program : String) : (numbered program).Pairwise (·.2 < ·.2) := by
  rw [← List.pairwise_map, numbers_numbered]
  exact List.pairwise_lt_range'

/-! ## Empty lines -/

section Emptied

variable (chosen : Nat → Bool)

/-- What is left of a line when the chosen ones are made empty. -/
def remainder (line : List Char) (n : Nat) : List Char :=
  if chosen n then [] else line

/-- The numbered lines with the chosen ones made empty. -/
def emptyLines (ls : List (List Char × Nat)) : List (List Char × Nat) :=
  ls.map fun (line, n) => (remainder chosen line n, n)

/-- What is left of lines that are numbered from `n`. -/
def remainders (n : Nat) (ls : List (List Char)) : List (List Char) :=
  (ls.zipIdx n).map fun (line, k) => remainder chosen line k

/-- The program with the chosen lines made empty. -/
def emptied (program : String) : String :=
  String.ofList (Text.unlines (remainders chosen 1 (Text.pieces (· == '\n') program.toList)))

theorem mem_of_mem_remainder {c : Char} {line : List Char} {n : Nat}
    (h : c ∈ remainder chosen line n) : c ∈ line := by
  unfold remainder at h
  by_cases empty : chosen n = true
  · rw [if_pos empty] at h
    cases h
  · rw [if_neg empty] at h
    exact h

theorem dropCarriageReturn_remainder (line : List Char) (n : Nat) :
    Text.dropCarriageReturn (remainder chosen line n) =
      remainder chosen (Text.dropCarriageReturn line) n := by
  unfold remainder
  split <;> rfl

/-- Making lines empty does not renumber them. -/
theorem zipIdx_remainders (n : Nat) (ls : List (List Char)) :
    ((remainders chosen n ls).map Text.dropCarriageReturn).zipIdx n =
      emptyLines chosen ((ls.map Text.dropCarriageReturn).zipIdx n) := by
  induction ls generalizing n with
  | nil => rfl
  | cons line ls ih =>
      have rest := ih (n + 1)
      simp only [remainders, emptyLines] at rest
      simp only [remainders, emptyLines, List.zipIdx_cons, List.map_cons]
      rw [rest, dropCarriageReturn_remainder]

section Items

variable {s : Strictness} {line : List Char} {n : Nat} (rest : List (List Char × Nat))

theorem itemsOn_emptyLines_of_chosen (h : chosen n = true) :
    itemsOn s (emptyLines chosen ((line, n) :: rest)) = itemsOn s (emptyLines chosen rest) := by
  have empty : remainder chosen line n = [] := if_pos h
  refine itemsOn_of_blank ?_ _
  rw [empty]
  exact Item.ofLine?_nil s n

theorem itemsOn_emptyLines_of_blank (h : Item.ofLine? s n line = none) :
    itemsOn s (emptyLines chosen ((line, n) :: rest)) = itemsOn s (emptyLines chosen rest) := by
  refine itemsOn_of_blank ?_ _
  unfold remainder
  split
  · exact Item.ofLine?_nil s n
  · exact h

theorem itemsOn_emptyLines_of_item {item : Item} (h : Item.ofLine? s n line = some item)
    (kept : chosen n = false) :
    itemsOn s (emptyLines chosen ((line, n) :: rest)) =
      item :: itemsOn s (emptyLines chosen rest) := by
  have whole : remainder chosen line n = line := if_neg (Bool.eq_false_iff.mp kept)
  refine itemsOn_of_item ?_ _
  rw [whole]
  exact h

end Items

theorem numbered_emptied (program : String) :
    numbered (emptied chosen program) = emptyLines chosen (numbered program) := by
  have some : remainders chosen 1 (Text.pieces (· == '\n') program.toList) ≠ [] := by
    intro none
    rw [remainders, List.map_eq_nil_iff, List.zipIdx_eq_nil_iff] at none
    exact Text.pieces_ne_nil _ _ none
  have single : ∀ line ∈ remainders chosen 1 (Text.pieces (· == '\n') program.toList),
      '\n' ∉ line := by
    intro line mem
    obtain ⟨⟨piece, n⟩, numbered, rfl⟩ := List.mem_map.mp mem
    have cut := Text.not_mem_of_mem_pieces (List.fst_mem_of_mem_zipIdx numbered)
    exact fun feed => cut (mem_of_mem_remainder chosen feed)
  unfold numbered emptied
  rw [String.toList_ofList, Text.lines_unlines some single]
  exact zipIdx_remainders chosen 1 _

example : emptied (· == 2) "G21\r\nG1 Xa\r\nM84" = "G21\r\n\nM84" := by decide

end Emptied

end PrintPath.Program
