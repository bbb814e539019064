import Mathlib.Data.Finset.Card
import PrintPath.Proofs.Pass.Lines
import PrintPath.Proofs.Text.Words
import PrintPath.Proofs.Toolpath.Moves
import PrintPath.Toolpath.Summary

/-!
# Every line is accounted for

A program falls into its blank lines and three kinds of others: those that move
the machine, those that are refused, and those with a command that makes no
move. A toolpath that is built from it counts each line of the first kind as a
move and keeps one diagnostic for each line of the second. Nothing is lost and
nothing is counted twice.
-/

namespace PrintPath

/-! ## Commands without a move -/

/-- The words of the commands that make no move. -/
def Command.silentWords : List String :=
  ["G20", "G21", "G90", "G91", "G92", "M82", "M83", "M84"]

theorem Command.mem_silentWords_iff {w : String} :
    w ∈ silentWords ↔ ∃ c, ofWord? w = some c ∧ ∀ rapid, c ≠ .move rapid := by
  constructor
  · intro mem
    have known : ∀ w ∈ silentWords, ∃ c, ofWord? w = some c ∧ ∀ rapid, c ≠ .move rapid := by
      simp only [silentWords, List.forall_mem_cons]
      exact ⟨⟨_, rfl, by simp⟩, ⟨_, rfl, by simp⟩, ⟨_, rfl, by simp⟩, ⟨_, rfl, by simp⟩,
        ⟨_, rfl, by simp⟩, ⟨_, rfl, by simp⟩, ⟨_, rfl, by simp⟩, ⟨_, rfl, by simp⟩, by simp⟩
    exact known w mem
  · rintro ⟨c, known, still⟩
    rw [← word_of_ofWord? known]
    cases c with
    | move rapid => exact absurd rfl (still rapid)
    | selectUnit unit => cases unit <;> decide
    | selectPositioning mode => cases mode <;> decide
    | setPosition => decide
    | selectExtrusion mode => cases mode <;> decide
    | releaseMotors => decide

/-- A block that is not refused makes a move unless its command makes none. -/
theorem Machine.command_of_step {m m' : Machine} {b : Block} {move : Option Move}
    (h : m.step b = .ok (m', move)) : b.command ∈ Command.silentWords ↔ move = none := by
  obtain ⟨c, known, result, _⟩ := step_eq_ok_iff.mp h
  rw [Command.mem_silentWords_iff, known]
  cases c with
  | move rapid =>
      cases result
      simp
  | selectUnit unit =>
      cases result
      simp
  | selectPositioning mode =>
      cases result
      simp
  | setPosition =>
      cases result
      simp
  | selectExtrusion mode =>
      cases result
      simp
  | releaseMotors =>
      cases result
      simp

namespace Program

/-! ## Three kinds of lines -/

/-- Whether there is more on a line than blanks and a comment. -/
def isWritten (line : List Char) : Bool :=
  !(Text.trim (Line.code line)).isEmpty

/-- Whether a line is read as a block with a command that makes no move. A line that
is refused gives no block, whatever its first word is. -/
def isSilent (s : Strictness) (line : List Char) (n : Nat) : Bool :=
  match Line.read s n line with
  | .ok (some b) => b.command ∈ Command.silentWords
  | _ => false

/-- The numbers of the lines that are not blank. -/
def writtenLines (ls : List (List Char × Nat)) : List Nat :=
  (ls.filter fun l => isWritten l.1).map Prod.snd

/-- The numbers of the lines with a command that makes no move. -/
def silentLines (s : Strictness) (ls : List (List Char × Nat)) : List Nat :=
  (ls.filter fun l => isSilent s l.1 l.2).map Prod.snd

theorem isWritten_eq_false_iff {line : List Char} :
    isWritten line = false ↔ Line.codeWords line = [] := by
  unfold isWritten Line.codeWords
  rw [Text.words_eq_nil_iff_trim]
  simp

theorem ofLine?_eq_none_iff {s : Strictness} {n : Nat} {line : List Char} :
    Item.ofLine? s n line = none ↔ isWritten line = false := by
  rw [isWritten_eq_false_iff, Item.codeWords_eq_nil_iff]

section Line

variable {s : Strictness} {n : Nat} {line : List Char}

theorem writtenLines_cons_of_item {item : Item} (h : Item.ofLine? s n line = some item)
    (rest : List (List Char × Nat)) :
    writtenLines ((line, n) :: rest) = n :: writtenLines rest := by
  have written : isWritten line = true := by
    rw [← Bool.not_eq_false, ← ofLine?_eq_none_iff (s := s) (n := n), h]
    simp
  simp [writtenLines, written]

theorem silentLines_cons_of_not (h : isSilent s line n = false)
    (rest : List (List Char × Nat)) : silentLines s ((line, n) :: rest) = silentLines s rest := by
  simp [silentLines, h]

theorem isSilent_of_item {item : Item} (h : Item.ofLine? s n line = some item) :
    isSilent s line n = match item.result with
      | .ok b => decide (b.command ∈ Command.silentWords)
      | .error _ => false := by
  rw [Item.ofLine?_eq] at h
  unfold isSilent
  cases read : Line.read s n line with
  | error fault =>
      rw [read] at h
      cases h
      rfl
  | ok b? =>
      rw [read] at h
      cases b? with
      | none => cases h
      | some b =>
          cases h
          rfl

/-- A line whose item runs without a fault is silent exactly if it makes no
move. -/
theorem isSilent_of_run {item : Item} (h : Item.ofLine? s n line = some item) {m m' : Machine}
    {move : Option Move} (run : item.run m = .ok (m', move)) :
    isSilent s line n = true ↔ move = none := by
  obtain ⟨b, read, step⟩ := Item.run_eq_ok_iff.mp run
  rw [isSilent_of_item h, read, ← Machine.command_of_step step]
  exact decide_eq_true_iff

/-- A line that is refused without ending the run is not silent: it has no
block, or none with a known command. -/
theorem isSilent_of_fault {item : Item} (h : Item.ofLine? s n line = some item) {m : Machine}
    {fault : Fault} (run : item.run m = .error fault) (mild : fault.isFatal = false) :
    isSilent s line n = false := by
  rw [isSilent_of_item h]
  rcases Item.run_eq_error_iff.mp run with refused | ⟨b, read, step⟩
  · rw [refused]
  · rw [read]
    rcases Machine.step_eq_error_iff.mp step with ⟨unknown, _⟩ | ⟨_, _, _, _, rfl⟩
    · refine decide_eq_false fun mem => ?_
      obtain ⟨c, known, _⟩ := Command.mem_silentWords_iff.mp mem
      rw [unknown] at known
      cases known
    · cases mild

end Line

end Program

/-! ## A run over numbered lines -/

/-- The lines of some moves. -/
def moveLines (moves : List Move) : List Nat :=
  moves.map Move.line

/-- The lines of some faults. -/
def faultLines (faults : List Fault) : List Nat :=
  faults.map Fault.line

theorem moveLines_movesOf_sublist (outcomes : List Outcome) :
    (moveLines (movesOf outcomes)).Sublist (outcomes.map outcomeLine) := by
  induction outcomes with
  | nil => exact List.Sublist.slnil
  | cons outcome rest ih =>
      cases outcome with
      | ok move => exact ih.cons_cons _
      | error fault => exact ih.cons _

theorem faultLines_faultsOf_sublist (outcomes : List Outcome) :
    (faultLines (faultsOf outcomes)).Sublist (outcomes.map outcomeLine) := by
  induction outcomes with
  | nil => exact List.Sublist.slnil
  | cons outcome rest ih =>
      cases outcome with
      | ok move => exact ih.cons _
      | error fault => exact ih.cons_cons _

namespace Pass

open Program

/-- **Conservation of lines.** If no fault ends the run, every line that is not
blank is reported on once, as a move or as a fault, or is silent. -/
theorem writtenLines_perm (s : Strictness) (m : Machine) (ls : List (List Char × Nat))
    (mild : ∀ fault ∈ faultsOf (outcomesOf .bestEffort m (itemsOn s ls)),
      fault.isFatal = false) :
    (writtenLines ls).Perm
      (moveLines (movesOf (outcomesOf .bestEffort m (itemsOn s ls))) ++
        faultLines (faultsOf (outcomesOf .bestEffort m (itemsOn s ls))) ++ silentLines s ls) := by
  induction m, ls using lines_induction (s := s) with
  | nil m => exact List.Perm.refl _
  | blank m line n rest given ih =>
      have blank : isWritten line = false := ofLine?_eq_none_iff.mp given
      have unread : isSilent s line n = false := by
        unfold isSilent
        rw [Line.read_eq, isWritten_eq_false_iff.mp blank]
      have skipped : writtenLines ((line, n) :: rest) = writtenLines rest := by
        simp [writtenLines, blank]
      rw [itemsOn_of_blank given] at mild ⊢
      rw [skipped, silentLines_cons_of_not unread]
      exact ih mild
  | fault m line n rest item fault given h about ih =>
      rw [itemsOn_of_item given] at mild ⊢
      have goesOn : ¬ ends .bestEffort fault = true := by
        intro final
        rw [outcomesOf_of_ends h final] at mild
        rw [ends_bestEffort, mild fault List.mem_cons_self] at final
        cases final
      rw [outcomesOf_of_not_ends h goesOn, faultsOf_fault, List.forall_mem_cons] at mild
      rw [outcomesOf_of_not_ends h goesOn, movesOf_fault, faultsOf_fault,
        writtenLines_cons_of_item given,
        silentLines_cons_of_not (isSilent_of_fault given h mild.1)]
      show (n :: _).Perm (_ ++ fault.line :: _ ++ _)
      rw [about, List.append_assoc, List.cons_append]
      exact ((ih mild.2).cons n).trans (by rw [List.append_assoc]; exact List.perm_middle.symm)
  | move m line n rest item m' move given h about ih =>
      rw [itemsOn_of_item given, outcomesOf_of_move h] at mild ⊢
      have seen : isSilent s line n = false := by
        rw [← Bool.not_eq_true, isSilent_of_run given h]
        simp
      rw [movesOf_move, faultsOf_move, writtenLines_cons_of_item given,
        silentLines_cons_of_not seen]
      show (n :: _).Perm (move.line :: _ ++ _ ++ _)
      rw [about, List.cons_append, List.cons_append]
      exact (ih mild).cons n
  | silence m line n rest item m' given h ih =>
      rw [itemsOn_of_item given, outcomesOf_of_silence h] at mild ⊢
      have silent : isSilent s line n = true := (isSilent_of_run given h).mpr rfl
      have counted : silentLines s ((line, n) :: rest) = n :: silentLines s rest := by
        simp [silentLines, silent]
      rw [writtenLines_cons_of_item given, counted]
      exact ((ih mild).cons n).trans List.perm_middle.symm

end Pass

/-! ## Builds -/

namespace Program

theorem writtenLines_sublist (ls : List (List Char × Nat)) :
    (writtenLines ls).Sublist (ls.map Prod.snd) :=
  List.filter_sublist.map Prod.snd

theorem nodup_writtenLines (program : String) : (writtenLines (numbered program)).Nodup := by
  have numbers := List.nodup_range' (s := 1) (n := (Text.lines program.toList).length)
  rw [← numbers_numbered] at numbers
  exact numbers.sublist (writtenLines_sublist _)

end Program

namespace Pass

/-- The outcomes of a pass are about lines of its program, in their order. -/
theorem reported_sublist (program : String) (reading : ReadingOptions) :
    ((ofProgram program reading).outcomes.map outcomeLine).Sublist
      (List.range' 1 (Text.lines program.toList).length) := by
  rw [outcomes_ofProgram, Program.items_eq, ← Program.numbers_numbered]
  exact outcomeLines_sublist _ _ _ _

theorem reported_ascending (program : String) (reading : ReadingOptions) :
    ((ofProgram program reading).outcomes.map outcomeLine).Pairwise (· < ·) :=
  List.Pairwise.sublist (reported_sublist program reading) List.pairwise_lt_range'

end Pass

namespace Toolpath

open Program

section Built

variable {program : String} {s : Strictness} {drawing : DrawingOptions} {t : Toolpath}
  (ok : ofProgram program ⟨s, .bestEffort⟩ drawing = .ok t)

include ok

/-- A build that succeeds accounts for every line that is not blank. -/
theorem writtenLines_perm_of_ok :
    (writtenLines (numbered program)).Perm
      (moveLines (movesOf (Pass.ofProgram program ⟨s, .bestEffort⟩).outcomes) ++
        faultLines t.diagnostics.toList ++ silentLines s (numbered program)) := by
  obtain ⟨_, mild⟩ := eq_built_of_ok ok
  rw [diagnostics_of_ok ok]
  rw [Pass.outcomes_ofProgram] at mild ⊢
  exact Pass.writtenLines_perm s .initial (numbered program) fun fault mem =>
    (Pass.ends_bestEffort fault).symm.trans (mild fault mem)

theorem moves_of_ok :
    t.totals.moves = (movesOf (Pass.ofProgram program ⟨s, .bestEffort⟩).outcomes).length := by
  obtain ⟨rfl, _⟩ := eq_built_of_ok ok
  exact moves_built drawing _ _

/-- The segments of a build are on lines that moved the machine. -/
theorem segmentLines_sublist :
    (t.segments.toList.map Segment.line).Sublist
      (moveLines (movesOf (Pass.ofProgram program ⟨s, .bestEffort⟩).outcomes)) := by
  obtain ⟨rfl, _⟩ := eq_built_of_ok ok
  rw [segments_built, List.map_map]
  exact List.filter_sublist.map Move.line

theorem faultLines_ascending : (faultLines t.diagnostics.toList).Pairwise (· < ·) := by
  rw [diagnostics_of_ok ok]
  exact (Pass.reported_ascending program ⟨s, .bestEffort⟩).sublist
    (faultLines_faultsOf_sublist _)

end Built

/-- A summary counts the skipped lines, if no two diagnostics are of one line. -/
theorem skippedLines_eq {diagnostics : Array Fault}
    (distinct : (faultLines diagnostics.toList).Nodup) :
    skippedLines diagnostics =
      if faultLines diagnostics.toList = [] then []
      else [s!"{(faultLines diagnostics.toList).toFinset.card} lines skipped with errors"] := by
  have none : faultLines diagnostics.toList = [] ↔ diagnostics.isEmpty = true :=
    List.map_eq_nil_iff.trans (Array.toList_eq_nil_iff.trans Array.isEmpty_iff.symm)
  have count : (faultLines diagnostics.toList).length = diagnostics.size :=
    (List.length_map _).trans Array.length_toList
  unfold skippedLines
  rw [List.toFinset_card_of_nodup distinct, count]
  exact if_congr none.symm rfl rfl

/-- **Every line is accounted for.** What a pass reports is about lines of the
program, each at most once and in their order. If a build succeeds, the lines
that are not blank are those of the moves, those of the diagnostics and those
with a command that makes no move, without any overlap, and so add up. The
lines of the segments and those of the diagnostics ascend and are never the
same, so that the number of skipped lines in a summary is one of lines. -/
theorem every_line_accounted (program : String) :
    (∀ reading : ReadingOptions,
      let reported := (Pass.ofProgram program reading).outcomes.map outcomeLine
      reported.Pairwise (· < ·) ∧
      ∀ n ∈ reported, 1 ≤ n ∧ n ≤ (Text.lines program.toList).length) ∧
    ∀ s drawing t, ofProgram program ⟨s, .bestEffort⟩ drawing = .ok t →
      let written := writtenLines (numbered program)
      let moved := moveLines (movesOf (Pass.ofProgram program ⟨s, .bestEffort⟩).outcomes)
      let faulty := faultLines t.diagnostics.toList
      let silent := silentLines s (numbered program)
      let drawn := t.segments.toList.map Segment.line
      written.Perm (moved ++ faulty ++ silent) ∧ (moved ++ faulty ++ silent).Nodup ∧
      written.length = t.totals.moves + t.diagnostics.size + silent.length ∧
      drawn.Sublist moved ∧ drawn.Pairwise (· < ·) ∧ faulty.Pairwise (· < ·) ∧
      drawn.Disjoint faulty ∧
      skippedLines t.diagnostics =
        if faulty = [] then [] else [s!"{faulty.toFinset.card} lines skipped with errors"] := by
  refine ⟨fun reading => ⟨Pass.reported_ascending program reading, fun n mem => ?_⟩, ?_⟩
  · have inside := (Pass.reported_sublist program reading).subset mem
    rw [List.mem_range'_1] at inside
    omega
  · intro s drawing t ok written moved faulty silent drawn
    have perm : written.Perm (moved ++ faulty ++ silent) := writtenLines_perm_of_ok ok
    have once : (moved ++ faulty ++ silent).Nodup :=
      perm.nodup_iff.mp (nodup_writtenLines program)
    have part : drawn.Sublist moved := segmentLines_sublist ok
    have ascending : faulty.Pairwise (· < ·) := faultLines_ascending ok
    refine ⟨perm, once, ?_, part, ?_, ascending, ?_, ?_⟩
    · have moves : moved.length = t.totals.moves :=
        (List.length_map _).trans (moves_of_ok ok).symm
      have faults : faulty.length = t.diagnostics.size :=
        (List.length_map _).trans Array.length_toList
      rw [perm.length_eq, List.length_append, List.length_append, moves, faults]
    · exact ((Pass.reported_ascending program ⟨s, .bestEffort⟩).sublist
        (moveLines_movesOf_sublist _)).sublist part
    · have apart := List.disjoint_of_nodup_append (List.Nodup.of_append_left once)
      exact List.disjoint_of_subset_left part.subset apart
    · exact skippedLines_eq (ascending.imp Nat.ne_of_lt)

end Toolpath

end PrintPath
