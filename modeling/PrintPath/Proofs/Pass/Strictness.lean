import PrintPath.Proofs.Block.Cleaning
import PrintPath.Proofs.Pass.Policy
import PrintPath.Proofs.Program.Lines

/-!
# Strict and lenient passes

A lenient pass over a program is the strict pass over the program whose lines
have been cleaned. The items of the two still differ in the notes on what was
left out, which no run looks at.
-/

namespace PrintPath

/-! ## Cleaned programs -/

namespace Program

/-- The program with every line cleaned. -/
def cleaned (program : String) : String :=
  String.ofList (Text.unlines ((Text.pieces (· == '\n') program.toList).map Line.cleaned))

theorem lines_cleaned (program : String) :
    Text.lines (cleaned program).toList =
      ((Text.pieces (· == '\n') program.toList).map Line.cleaned).map Text.dropCarriageReturn := by
  have some : (Text.pieces (· == '\n') program.toList).map Line.cleaned ≠ [] := fun none =>
    Text.pieces_ne_nil _ _ (List.map_eq_nil_iff.mp none)
  have single : ∀ line ∈ (Text.pieces (· == '\n') program.toList).map Line.cleaned,
      '\n' ∉ line := by
    intro line mem feed
    obtain ⟨piece, piece_mem, rfl⟩ := List.mem_map.mp mem
    exact Text.not_mem_of_mem_pieces piece_mem ((Line.cleaned_sublist piece).subset feed)
  unfold cleaned
  rw [String.toList_ofList, Text.lines_unlines some single]

example : cleaned "G1 X1 Y\r\nG92 E;Y\n*" = "G1 X1 \r\nG92 ;Y\n*" := by decide +kernel

end Program

/-! ## Items by their readings -/

namespace Item

theorem map_result_ofLine? {s s' : Strictness} {n : Nat} {line line' : List Char}
    (h : Line.read s n line = Line.read s' n line') :
    (ofLine? s n line).map result = (ofLine? s' n line').map result := by
  rw [ofLine?_eq, ofLine?_eq, h]
  cases Line.read s' n line' with
  | error fault => rfl
  | ok b? => cases b? <;> rfl

theorem run_congr {item item' : Item} (h : item.result = item'.result) (m : Machine) :
    item.run m = item'.run m := by
  unfold run
  rw [h]

end Item

namespace Line

/-- A line and the cleaned one give the same reading, each in its own way. The
line break may have had a carriage return. -/
theorem read_strict_cleaned (n : Nat) (piece : List Char) :
    read .strict n (Text.dropCarriageReturn (cleaned piece)) =
      read .lenient n (Text.dropCarriageReturn piece) :=
  calc read .strict n (Text.dropCarriageReturn (cleaned piece))
      = read .strict n (cleaned piece) := read_congr (codeWords_dropCarriageReturn _) _ _
    _ = read .lenient n piece := read_strict_of_kept (codeWords_cleaned piece) n
    _ = read .lenient n (Text.dropCarriageReturn piece) :=
        (read_congr (codeWords_dropCarriageReturn piece) _ _).symm

end Line

namespace Program

/-- Lines that are read alike give items with the same readings. -/
theorem map_result_itemsOn_congr {s s' : Strictness} {ls ls' : List (List Char)}
    (h : List.Forall₂ (fun l l' => ∀ n, Line.read s n l = Line.read s' n l') ls ls') (n : Nat) :
    (itemsOn s (ls.zipIdx n)).map Item.result = (itemsOn s' (ls'.zipIdx n)).map Item.result := by
  induction h generalizing n with
  | nil => rfl
  | @cons l l' ls ls' first _ ih =>
      have same := Item.map_result_ofLine? (first n)
      have rest := ih (n + 1)
      unfold itemsOn at rest ⊢
      simp only [List.zipIdx_cons, List.filterMap_cons]
      cases given : Item.ofLine? s n l with
      | none =>
          rw [given] at same
          rw [Option.map_eq_none_iff.mp same.symm]
          exact rest
      | some item =>
          rw [given] at same
          obtain ⟨item', given', result⟩ := Option.map_eq_some_iff.mp same.symm
          rw [given']
          simp only [List.map_cons, result, rest]

theorem map_result_items_cleaned (program : String) :
    (items .strict (cleaned program)).map Item.result =
      (items .lenient program).map Item.result := by
  rw [items_eq, items_eq]
  unfold numbered
  rw [lines_cleaned]
  refine map_result_itemsOn_congr ?_ 1
  unfold Text.lines
  rw [List.forall₂_map_left_iff, List.forall₂_map_left_iff, List.forall₂_map_right_iff,
    List.forall₂_same]
  exact fun piece _ n => Line.read_strict_cleaned n piece

end Program

namespace Pass

/-- A run looks at nothing of its items but their readings. -/
theorem run_congr (policy : ErrorPolicy) (m : Machine) {is js : List Item}
    (h : is.map Item.result = js.map Item.result) :
    outcomesOf policy m is = outcomesOf policy m js ∧
      settled policy m is = settled policy m js := by
  induction is generalizing m js with
  | nil =>
      obtain rfl := List.map_eq_nil_iff.mp h.symm
      exact ⟨rfl, rfl⟩
  | cons item is ih =>
      obtain ⟨item', js, rfl, first, rest⟩ := List.map_eq_cons_iff.mp h.symm
      have same : item'.run m = item.run m := Item.run_congr first m
      cases run : item.run m with
      | error fault =>
          rw [run] at same
          by_cases last : ends policy fault = true
          · rw [outcomesOf_of_ends run last, outcomesOf_of_ends same last,
              settled_of_ends run last, settled_of_ends same last]
            exact ⟨rfl, rfl⟩
          · rw [outcomesOf_of_not_ends run last, outcomesOf_of_not_ends same last,
              settled_of_not_ends run last, settled_of_not_ends same last]
            obtain ⟨outcomes, machine⟩ := ih m rest.symm
            exact ⟨congrArg _ outcomes, machine⟩
      | ok r =>
          obtain ⟨m', move⟩ := r
          rw [run] at same
          obtain ⟨outcomes, machine⟩ := ih m' rest.symm
          rw [settled_of_ok run, settled_of_ok same]
          cases move with
          | none =>
              rw [outcomesOf_of_silence run, outcomesOf_of_silence same]
              exact ⟨outcomes, machine⟩
          | some move =>
              rw [outcomesOf_of_move run, outcomesOf_of_move same]
              exact ⟨congrArg _ outcomes, machine⟩

/-- **Strict and lenient reading agree.** The cleaned line is the line without
its malformed arguments. A lenient reading never fails and is the strict one of
the cleaned line; a strict reading fails exactly for the first malformed
argument, and is the lenient one otherwise. A lenient pass over a program is the
strict pass over the cleaned program. -/
theorem strict_lenient_agree :
    (∀ n line,
      (Line.cleaned line).Sublist line ∧
      Line.codeWords (Line.cleaned line) =
        (Line.codeWords line).take 1 ++ (Line.arguments line).filter Line.isArgument ∧
      (∃ r, Line.read .lenient n line = .ok r) ∧
      Line.read .lenient n line = Line.read .strict n (Line.cleaned line) ∧
      ((∃ fault, Line.read .strict n line = .error fault) ↔
        ∃ word ∈ Line.arguments line, Line.isArgument word = false) ∧
      (∀ fault, Line.read .strict n line = .error fault →
        ∃ before word after defect, Line.arguments line = before ++ word :: after ∧
          (∀ w ∈ before, Line.isArgument w = true) ∧ readArgument word = .error defect ∧
          fault = .malformedArgument n (String.ofList word) defect) ∧
      ∀ r, Line.read .strict n line = .ok r → Line.read .lenient n line = .ok r) ∧
    ∀ program policy,
      let lenient := ofProgram program ⟨.lenient, policy⟩
      let strict := ofProgram (Program.cleaned program) ⟨.strict, policy⟩
      lenient.outcomes = strict.outcomes ∧ lenient.finished.machine = strict.finished.machine := by
  refine ⟨fun n line => ⟨Line.cleaned_sublist line, Line.codeWords_cleaned line,
    Line.exists_read_lenient n line,
    (Line.read_strict_of_kept (Line.codeWords_cleaned line) n).symm,
    Line.read_strict_fails_iff, fun fault h => Line.read_strict_eq_error_iff.mp h,
    fun r h => Line.read_lenient_of_strict h⟩, fun program policy => ?_⟩
  obtain ⟨outcomes, machine⟩ := run_congr policy .initial
    (Program.map_result_items_cleaned program).symm
  intro lenient strict
  constructor
  · exact (outcomes_ofProgram program ⟨.lenient, policy⟩).trans
      (outcomes.trans (outcomes_ofProgram _ ⟨.strict, policy⟩).symm)
  · exact (finished_ofProgram program ⟨.lenient, policy⟩).trans
      (machine.trans (finished_ofProgram _ ⟨.strict, policy⟩).symm)

end Pass

end PrintPath
