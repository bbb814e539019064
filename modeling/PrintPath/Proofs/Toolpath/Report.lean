import PrintPath.Proofs.Log.Entries
import PrintPath.Proofs.Pass.Notes
import PrintPath.Proofs.Toolpath.Moves

/-!
# The log of a build

Nothing that goes wrong during a build is kept from the log. Line by line, up to where
the pass has read, the log complains of the arguments that were left out and of the
fault on the line, and of nothing else. It says that the run is complete exactly if the
build gives a toolpath.
-/

namespace PrintPath

open Note (entries isComplaint isTrace isCompletion complaint trace?)

/-! ## The entries of a line -/

namespace Line

/-- The block that is read from a line. -/
def block? (s : Strictness) (n : Nat) (line : List Char) : Option Block :=
  (read s n line).toOption.join

/-- The warnings that a reader owes a line: if it is lenient, one for each argument that
cannot be read, from left to right. -/
def skipWarnings (s : Strictness) (n : Nat) (line : List Char) : List (Severity × String) :=
  match s with
  | .strict => []
  | .lenient => (codeWords line).tail.filterMap fun word =>
    match readArgument word with
    | .ok _ => none
    | .error defect =>
      let fault := Fault.malformedArgument n (String.ofList word) defect
      some (.warn, s!"Skipping argument: {fault.message}")

theorem skipWarnings_eq (s : Strictness) (n : Nat) (line : List Char) :
    skipWarnings s n line =
      (skipped s n line).map fun fault => (.warn, s!"Skipping argument: {fault.message}") := by
  cases s with
  | strict => rfl
  | lenient =>
      unfold skipWarnings skipped defects
      dsimp only
      rw [List.map_filterMap]
      refine List.filterMap_congr fun word _ => ?_
      cases readArgument word <;> rfl

end Line

namespace Item

variable {s : Strictness} {n : Nat} {line : List Char}

/-- What a line gives is its block, and what was left out of it. -/
theorem parts_of_ofLine? {item : Item} (h : ofLine? s n line = some item) :
    item.result.toOption = Line.block? s n line ∧ item.skipped = Line.skipped s n line := by
  rw [ofLine?_eq] at h
  unfold Line.block?
  cases read : Line.read s n line with
  | ok b? =>
      rw [read] at h
      cases b? with
      | none => cases h
      | some b =>
          cases h
          exact ⟨rfl, rfl⟩
  | error fault =>
      rw [read] at h
      cases h
      refine ⟨rfl, ?_⟩
      cases s with
      | strict => rfl
      | lenient =>
          rw [Line.read_eq] at read
          cases words : Line.codeWords line <;> simp [words] at read

theorem line_of_block? {b : Block} (h : Line.block? s n line = some b) : b.line = n := by
  unfold Line.block? at h
  rcases Line.read_cases s n line with blank | ⟨reading, read, number⟩
  · rw [blank] at h
    cases h
  · rw [read] at h
    cases reading with
    | ok b' =>
        cases h
        exact number
    | error fault => cases h

/-- A blank line gives no block and leaves nothing out. -/
theorem parts_of_blank (h : ofLine? s n line = none) :
    Line.block? s n line = none ∧ Line.skipped s n line = [] := by
  have empty := codeWords_eq_nil_iff.mpr h
  unfold Line.block? Line.skipped
  rw [Line.read_eq, empty]
  cases s <;> exact ⟨rfl, rfl⟩

end Item

namespace Pass

variable (policy : ErrorPolicy) (s : Strictness) (faults : List Fault) (line : List Char) (n : Nat)

theorem complaints_lineNotes :
    entries isComplaint (lineNotes policy s faults (line, n)) =
      Line.skipWarnings s n line ++ (faultsOn faults n).map complaint := by
  have left : entries isComplaint ((Item.ofLine? s n line).elim [] Item.notes) =
      Line.skipWarnings s n line := by
    rw [Line.skipWarnings_eq]
    cases given : Item.ofLine? s n line with
    | none =>
        rw [(Item.parts_of_blank given).2]
        rfl
    | some item =>
        rw [← (Item.parts_of_ofLine? given).2]
        exact Note.complaints_notes item
  have reported : entries isComplaint ((faultsOn faults n).flatMap (faultNotes policy)) =
      (faultsOn faults n).map complaint := by
    rw [Note.entries_flatMap, List.map_eq_flatMap]
    exact List.flatMap_congr fun fault _ => Note.complaints_faultNotes policy fault
  unfold lineNotes
  rw [Note.entries_append, left, reported]

theorem traces_lineNotes :
    entries isTrace (lineNotes policy s faults (line, n)) =
      ((Line.block? s n line).bind trace?).toList := by
  have reported : entries isTrace ((faultsOn faults n).flatMap (faultNotes policy)) = [] := by
    rw [Note.entries_flatMap, List.flatMap_eq_nil_iff]
    exact fun fault _ => Note.traces_faultNotes policy fault
  unfold lineNotes
  rw [Note.entries_append, reported, List.append_nil]
  cases given : Item.ofLine? s n line with
  | none =>
      rw [(Item.parts_of_blank given).1]
      rfl
  | some item =>
      rw [← (Item.parts_of_ofLine? given).1]
      exact Note.traces_notes item

theorem isOfBuild_lineNotes (l : List Char × Nat) :
    ∀ note ∈ lineNotes policy s faults l, note.isOfBuild = true := by
  intro note mem
  rcases List.mem_append.mp mem with ofItem | ofFault
  · cases given : Item.ofLine? s l.2 l.1 with
    | none => simp [given] at ofItem
    | some item =>
        rw [given] at ofItem
        exact Note.isOfBuild_notes item note ofItem
  · obtain ⟨fault, _, inside⟩ := List.mem_flatMap.mp ofFault
    exact Note.isOfBuild_faultNotes policy fault note inside

end Pass

namespace Toolpath

section Report

variable (program : String) (reading : ReadingOptions) (drawing : DrawingOptions)

/-- The lines that a build of a program reads. -/
def linesRead : List (List Char × Nat) :=
  Pass.linesRead reading.errorPolicy (faultsOf (Pass.ofProgram program reading).outcomes)
    (Program.numbered program)

theorem toldByLine : Pass.ToldByLine reading.errorPolicy reading.strictness .initial
    (Program.numbered program) (faultsOf (Pass.ofProgram program reading).outcomes) := by
  rw [Pass.outcomes_ofProgram, Program.items_eq]
  exact Pass.toldByLine _ _ _ (Program.ascending_numbered program)

/-- The note at the end of a build. -/
def lastNote : Except Fault Toolpath → List Note
  | .ok t => [.toolpathBuilt t.size t.totals.layers t.diagnostics.size]
  | .error _ => []

/-- The notes of a build are those of the lines that it reads, between a few others. -/
theorem log_eq : (report program reading drawing).2 =
    .runStarted program.utf8ByteSize ::
      ((linesRead program reading).flatMap (Pass.lineNotes reading.errorPolicy reading.strictness
          (faultsOf (Pass.ofProgram program reading).outcomes)) ++
        Pass.closing reading.errorPolicy .initial 0 0 (Program.items reading.strictness program)) ++
      lastNote (ofProgram program reading drawing) := by
  have notes : (Pass.ofProgram program reading).turns.flatMap Turn.notes =
      Pass.noted reading.errorPolicy .initial (Program.items reading.strictness program) ++
        Pass.closing reading.errorPolicy .initial 0 0
          (Program.items reading.strictness program) :=
    Pass.notes_turns rfl
  have told := (toldByLine program reading).notes
  rw [← Program.items_eq] at told
  show .runStarted _ :: (Pass.ofProgram program reading).turns.flatMap Turn.notes ++
    lastNote (ofProgram program reading drawing) = _
  rw [notes, told]
  rfl

/-- Apart from what is there for debugging, the log is that of the lines it reads. -/
theorem entries_log {p : Severity × String → Bool} (loud : ∀ message, p (.debug, message) = false) :
    entries p (report program reading drawing).2 = (linesRead program reading).flatMap fun l =>
      entries p (Pass.lineNotes reading.errorPolicy reading.strictness
        (faultsOf (Pass.ofProgram program reading).outcomes) l) := by
  have closing : entries p (Pass.closing reading.errorPolicy .initial 0 0
      (Program.items reading.strictness program)) = [] := by
    unfold Pass.closing
    split <;> simp [Note.entry, Note.severity, loud]
  have last : entries p (lastNote (ofProgram program reading drawing)) = [] := by
    unfold lastNote
    split <;> simp [Note.entry, Note.severity, loud]
  rw [log_eq, Note.entries_append, Note.entries_cons, Note.entries_append, closing, last,
    Note.entries_flatMap, List.append_nil, List.append_nil]
  exact if_neg (Bool.eq_false_iff.mp (loud _))

/-- The log says that the run is complete exactly if no fault ends it. -/
theorem completions_log : entries isCompletion (report program reading drawing).2 =
    entries isCompletion (Pass.closing reading.errorPolicy .initial 0 0
      (Program.items reading.strictness program)) := by
  have lines : entries isCompletion ((linesRead program reading).flatMap
      (Pass.lineNotes reading.errorPolicy reading.strictness
        (faultsOf (Pass.ofProgram program reading).outcomes))) = [] := by
    refine Note.completions_eq_nil fun note mem => ?_
    obtain ⟨l, _, inside⟩ := List.mem_flatMap.mp mem
    exact Pass.isOfBuild_lineNotes _ _ _ l note inside
  have last : entries isCompletion (lastNote (ofProgram program reading drawing)) = [] := by
    refine Note.completions_eq_nil ?_
    unfold lastNote
    split <;> simp [Note.isOfBuild]
  have first : entries isCompletion [.runStarted program.utf8ByteSize] = [] :=
    Note.completions_eq_nil (by simp [Note.isOfBuild])
  rw [log_eq, List.cons_append, ← List.singleton_append, Note.entries_append,
    Note.entries_append, Note.entries_append, first, lines, last, List.nil_append,
    List.nil_append, List.append_nil]

variable {program reading drawing}

theorem completions_of_ok {t : Toolpath} (h : ofProgram program reading drawing = .ok t) :
    entries isCompletion (report program reading drawing).2 =
      [(.debug,
        s!"Interpretation complete: {t.totals.moves} events, {t.diagnostics.size} errors")] := by
  obtain ⟨built, goesOn⟩ := eq_built_of_ok h
  have faults := diagnostics_of_ok h
  have moves : t.totals.moves = (movesOf (Pass.ofProgram program reading).outcomes).length := by
    rw [built, moves_built]
  rw [Pass.outcomes_ofProgram] at goesOn moves faults
  have completed : Pass.closing reading.errorPolicy .initial 0 0
      (Program.items reading.strictness program) =
        [.runCompleted t.totals.moves t.diagnostics.size] := by
    rw [Pass.closing, if_pos (show Pass.GoesOn _ _ _ from goesOn), ← moves, ← faults,
      Array.length_toList, Nat.zero_add, Nat.zero_add]
  have final : isCompletion (Note.runCompleted t.totals.moves t.diagnostics.size).entry = true := by
    iterate 3 refine begins_append_of_begins ?_ _
    exact begins_append _ _
  rw [completions_log, completed, Note.entries_cons, if_pos final]
  rfl

theorem completions_of_error {fault : Fault}
    (h : ofProgram program reading drawing = .error fault) :
    entries isCompletion (report program reading drawing).2 = [] := by
  have found := ofProgram_eq_error_iff.mp h
  rw [Pass.outcomes_ofProgram] at found
  have stops : ¬ Pass.GoesOn reading.errorPolicy .initial
      (Program.items reading.strictness program) := by
    intro goesOn
    have mild := goesOn fault (List.mem_of_find?_eq_some found)
    exact Bool.eq_false_iff.mp mild (List.find?_some found)
  rw [completions_log, Pass.closing, if_neg stops]
  rfl

theorem traces_log : entries isTrace (report program reading drawing).2 =
    (linesRead program reading).flatMap fun l =>
      ((Line.block? reading.strictness l.2 l.1).bind trace?).toList := by
  rw [entries_log program reading drawing fun _ => rfl]
  exact List.flatMap_congr fun l _ => Pass.traces_lineNotes _ _ _ l.1 l.2

/-- Among lines that ascend only one has its number. -/
theorem flatMap_line {α : Type} (f : List Char × Nat → List α) {ls : List (List Char × Nat)}
    (ascending : ls.Pairwise (·.2 < ·.2)) {l : List Char × Nat} (mem : l ∈ ls) :
    (ls.flatMap fun k => if k.2 == l.2 then f k else []) = f l := by
  induction ls with
  | nil => cases mem
  | cons k rest ih =>
      obtain ⟨behind, ascending⟩ := List.pairwise_cons.mp ascending
      rw [List.flatMap_cons]
      rcases List.mem_cons.mp mem with rfl | later
      · rw [if_pos (beq_self_eq_true l.2), List.flatMap_eq_nil_iff.mpr, List.append_nil]
        intro k after
        exact if_neg fun same => Nat.ne_of_gt (behind k after) (beq_iff_eq.mp same)
      · have other : k.2 ≠ l.2 := Nat.ne_of_lt (behind l later)
        rw [if_neg fun same => other (beq_iff_eq.mp same), ih ascending later]
        rfl

/-- No message on a line begins like one on another line, so a line has only its own. -/
theorem traces_of_line (drawing : DrawingOptions) {l : List Char × Nat}
    (mem : l ∈ linesRead program reading) :
    (entries isTrace (report program reading drawing).2).filter (begins (lineStart l.2) ·.2) =
      ((Line.block? reading.strictness l.2 l.1).bind trace?).toList := by
  have ascending : (linesRead program reading).Pairwise (·.2 < ·.2) :=
    (Program.ascending_numbered program).sublist (Pass.linesRead_sublist _ _ _)
  have own (k : List Char × Nat) :
      ((Line.block? reading.strictness k.2 k.1).bind trace?).toList.filter
          (begins (lineStart l.2) ·.2) =
        if k.2 == l.2 then ((Line.block? reading.strictness k.2 k.1).bind trace?).toList
        else [] := by
    cases traced : (Line.block? reading.strictness k.2 k.1).bind trace? with
    | none => simp
    | some e =>
        obtain ⟨b, read, written⟩ := Option.bind_eq_some_iff.mp traced
        have start := begins_lineStart (Note.begins_trace? written) l.2
        rw [Item.line_of_block? read] at start
        rw [Option.toList_some, List.filter_cons, start]
        rfl
  rw [traces_log, List.filter_flatMap]
  simp only [own]
  exact flatMap_line _ ascending mem

end Report

/-- **No fault is swallowed.** The lines that a build reads are those whose items are
not left pending. On each of them the pass reports one fault at most, and on no other
line any. The warnings and errors of the log are, line by line, one for each argument
that a lenient reader leaves out and then one for the fault on the line. The log says
once that the run is complete, with the moves and the diagnostics of the toolpath, if
there is one, and never otherwise. It traces each block with a known command, and no
line twice. -/
theorem nothing_swallowed (program : String) (reading : ReadingOptions)
    (drawing : DrawingOptions) :
    let result := (report program reading drawing).1
    let log := (report program reading drawing).2
    let pass := Pass.ofProgram program reading
    let faults := faultsOf pass.outcomes
    let lines := linesRead program reading
    Program.items reading.strictness program =
      Program.itemsOn reading.strictness lines ++ pass.finished.pending ∧
    faults = lines.flatMap (fun l => Pass.faultsOn faults l.2) ∧
    (∀ n, (Pass.faultsOn faults n).length ≤ 1) ∧
    entries isComplaint log = lines.flatMap (fun l =>
      Line.skipWarnings reading.strictness l.2 l.1 ++
      (Pass.faultsOn faults l.2).map fun fault =>
        if fault.isFatal then (.error, s!"Interpretation halted: {fault.message}")
        else (.warn, fault.message)) ∧
    (∀ t, result = .ok t → entries isCompletion log = [(.debug,
      s!"Interpretation complete: {t.totals.moves} events, {t.diagnostics.size} errors")]) ∧
    (∀ fault, result = .error fault → entries isCompletion log = []) ∧
    entries isTrace log = lines.flatMap (fun l =>
      ((Line.block? reading.strictness l.2 l.1).bind trace?).toList) ∧
    ∀ l ∈ lines, ∀ b command, Line.block? reading.strictness l.2 l.1 = some b →
      Command.ofWord? b.command = some command →
      (entries isTrace log).filter (fun e => begins s!"Line {l.2}: " e.2) =
        [(.trace, s!"Line {l.2}: {b.text} ({command.description})")] := by
  intro result log pass faults lines
  have told := toldByLine program reading
  refine ⟨?_, told.reported, fun n => ?_, ?_, fun t ok => completions_of_ok ok,
    fun fault failed => completions_of_error failed, traces_log, ?_⟩
  · have left : pass.finished.pending = _ := Pass.pending_finished pass
    rw [left, Program.items_eq]
    exact told.items
  · have single := Pass.length_faultsOn_le reading.errorPolicy reading.strictness .initial
      (Program.ascending_numbered program) n
    rw [← Program.items_eq, ← Pass.outcomes_ofProgram] at single
    exact single
  · rw [show log = (report program reading drawing).2 from rfl,
      entries_log program reading drawing fun _ => rfl]
    exact List.flatMap_congr fun l _ => Pass.complaints_lineNotes _ _ _ l.1 l.2
  · intro l mem b command read known
    have traced : (Line.block? reading.strictness l.2 l.1).bind trace? =
        some (.trace, s!"Line {l.2}: {b.text} ({command.description})") := by
      rw [read, Option.bind_some, trace?, known, Item.line_of_block? read]
      rfl
    have only := traces_of_line drawing mem
    rw [traced] at only
    exact only

/-- A lenient reader warns of each argument that it leaves out, ahead of the fault on the
line. -/
theorem nothing_swallowed_of_lenient :
    entries isComplaint
        (report "G1 X1 Yfoo 7 E1\nG7 Q\n\nG1 X2 Einf" ⟨.lenient, .bestEffort⟩ {}).2 =
      [(.warn, "Skipping argument: Malformed argument 'Yfoo' at line 1: invalid float literal"),
        (.warn, "Skipping argument: Malformed argument '7' at line 1: " ++
          "argument must start with a letter"),
        (.warn, "Skipping argument: Malformed argument 'Q' at line 2: missing numeric value"),
        (.warn, "Unrecognized command at line 2: G7"),
        (.warn, "Skipping argument: Malformed argument 'Einf' at line 4: " ++
          "value is not finite")] := by
  obtain ⟨-, -, -, complaints, -⟩ :=
    nothing_swallowed "G1 X1 Yfoo 7 E1\nG7 Q\n\nG1 X2 Einf" ⟨.lenient, .bestEffort⟩ {}
  exact complaints.trans (by decide +kernel)

end Toolpath

end PrintPath
