import Mathlib.Data.List.Infix
import PrintPath.Pass

/-!
# Entries of a log

A log shows of each note its severity and its message. Messages are told apart by how
they begin.
-/

namespace PrintPath

/-! ## Beginnings of texts -/

/-- Whether a text begins with another one. -/
def begins (start text : String) : Bool :=
  start.toList.isPrefixOf text.toList

theorem begins_iff {start text : String} :
    begins start text = true ↔ start.toList <+: text.toList :=
  List.isPrefixOf_iff_prefix

theorem begins_append (start text : String) : begins start (start ++ text) = true := by
  rw [begins_iff, String.toList_append]
  exact List.prefix_append _ _

theorem begins_append_of_begins {start text : String} (h : begins start text = true)
    (more : String) : begins start (text ++ more) = true := by
  rw [begins_iff] at h ⊢
  rw [String.toList_append]
  exact h.trans (List.prefix_append _ _)

/-- A text begins in one way: of two texts that it begins with, one begins with the
other. -/
theorem begins_or_begins {start head text : String} (h : begins start text = true)
    (h' : begins head text = true) : begins start head = true ∨ begins head start = true := by
  rw [begins_iff] at h h' ⊢
  rw [begins_iff]
  exact List.prefix_or_prefix_of_prefix h h'

/-- How the message on a block with line number `n` begins. -/
def lineStart (n : Nat) : String :=
  s!"Line {n}: "

theorem toList_lineStart (n : Nat) :
    (lineStart n).toList = "Line ".toList ++ (Nat.toDigits 10 n ++ ":".toList ++ " ".toList) := by
  unfold lineStart
  simp only [String.toList_append, List.append_assoc]
  rw [show (toString n).toList = Nat.toDigits 10 n from Nat.toList_repr]
  rfl

/-- The number is between the space and the colon. -/
theorem eq_of_begins_lineStart {n k : Nat} (h : begins (lineStart n) (lineStart k) = true) :
    n = k := by
  have digits (j : Nat) (rest : List Char) :
      (Nat.toDigits 10 j ++ ':' :: rest).takeWhile Char.isDigit = Nat.toDigits 10 j := by
    rw [List.takeWhile_append_of_pos
      fun _ mem => Nat.isDigit_of_mem_toDigits (by decide) (by decide) mem,
      List.takeWhile_cons_of_neg (by decide), List.append_nil]
  rw [begins_iff, toList_lineStart, toList_lineStart, List.prefix_append_right_inj] at h
  obtain ⟨rest, same⟩ := h
  have written : Nat.toDigits 10 n = Nat.toDigits 10 k := by
    have cut := congrArg (List.takeWhile Char.isDigit) same
    simpa [digits] using cut
  calc n = Nat.ofDigitChars 10 (Nat.toDigits 10 n) 0 := Nat.ofDigitChars_ten_toDigits.symm
    _ = Nat.ofDigitChars 10 (Nat.toDigits 10 k) 0 := by rw [written]
    _ = k := Nat.ofDigitChars_ten_toDigits

/-- A message about one line does not begin like one about another line. -/
theorem begins_lineStart {k : Nat} {text : String} (h : begins (lineStart k) text = true)
    (n : Nat) : begins (lineStart n) text = (k == n) := by
  by_cases same : k = n
  · rw [← same, h, beq_self_eq_true]
  · rw [beq_false_of_ne same]
    refine Bool.eq_false_iff.mpr fun both => ?_
    rcases begins_or_begins h both with inside | inside
    · exact same (eq_of_begins_lineStart inside)
    · exact same (eq_of_begins_lineStart inside).symm

example : begins (lineStart 1) (lineStart 12) = false := by decide

namespace Note

/-! ## Entries -/

/-- A note as the log shows it. -/
def entry (note : Note) : Severity × String :=
  (note.severity, note.message)

/-- The entries of a log that fulfil a condition. -/
def entries (p : Severity × String → Bool) (log : List Note) : List (Severity × String) :=
  (log.map entry).filter p

/-- Whether an entry is a warning or an error. -/
def isComplaint (e : Severity × String) : Bool :=
  e.1 = .warn || e.1 = .error

/-- Whether an entry traces a step of the run. -/
def isTrace (e : Severity × String) : Bool :=
  e.1 = .trace

/-- Whether an entry says that a run has come to the end of its program. -/
def isCompletion (e : Severity × String) : Bool :=
  begins "Interpretation complete: " e.2

section Entries

variable (p : Severity × String → Bool)

@[simp] theorem entries_nil : entries p [] = [] := rfl

@[simp] theorem entries_cons (note : Note) (log : List Note) :
    entries p (note :: log) = if p note.entry then note.entry :: entries p log else entries p log :=
  List.filter_cons

@[simp] theorem entries_append (log log' : List Note) :
    entries p (log ++ log') = entries p log ++ entries p log' := by
  simp [entries]

theorem entries_flatMap {α : Type} (xs : List α) (f : α → List Note) :
    entries p (xs.flatMap f) = xs.flatMap fun x => entries p (f x) := by
  unfold entries
  rw [List.map_flatMap, List.filter_flatMap]

end Entries

/-! ## Complaints -/

/-- How the log complains of a fault. -/
def complaint (fault : Fault) : Severity × String :=
  if fault.isFatal then (.error, s!"Interpretation halted: {fault.message}")
  else (.warn, fault.message)

theorem complaints_faultNotes (policy : ErrorPolicy) (fault : Fault) :
    entries isComplaint (Pass.faultNotes policy fault) = [complaint fault] := by
  unfold Pass.faultNotes complaint
  cases fault.isFatal <;> cases policy <;> rfl

theorem complaints_ofBlock (b : Block) : entries isComplaint (ofBlock b) = [] := by
  unfold ofBlock
  cases Command.ofWord? b.command with
  | none => rfl
  | some command => dsimp only; split <;> rfl

theorem complaints_notes (item : Item) :
    entries isComplaint item.notes =
      item.skipped.map fun fault => (.warn, s!"Skipping argument: {fault.message}") := by
  have said : entries isComplaint (item.skipped.map argumentSkipped) =
      item.skipped.map fun fault => (.warn, s!"Skipping argument: {fault.message}") := by
    induction item.skipped with
    | nil => rfl
    | cons fault rest ih => exact congrArg _ ih
  unfold Item.notes
  rw [entries_append, said]
  cases item.result with
  | ok b => rw [complaints_ofBlock, List.append_nil]
  | error fault => exact List.append_nil _

/-! ## Traces -/

theorem begins_message_blockApplied (b : Block) (command : Command) :
    begins (lineStart b.line) (blockApplied b command).message = true := by
  unfold message lineStart
  simp only [begins_iff, String.toList_append, List.append_assoc, List.prefix_append_right_inj,
    List.prefix_append]

/-- The message that traces a block, if its command is known. -/
def trace? (b : Block) : Option (Severity × String) :=
  (Command.ofWord? b.command).map fun command =>
    (.trace, s!"Line {b.line}: {b.text} ({command.description})")

theorem begins_trace? {b : Block} {e : Severity × String} (h : trace? b = some e) :
    begins (lineStart b.line) e.2 = true := by
  obtain ⟨command, _, rfl⟩ := Option.map_eq_some_iff.mp h
  exact begins_message_blockApplied b command

theorem traces_ofBlock (b : Block) : entries isTrace (ofBlock b) = (trace? b).toList := by
  unfold ofBlock trace?
  cases Command.ofWord? b.command with
  | none => rfl
  | some command => dsimp only; split <;> rfl

theorem traces_notes (item : Item) :
    entries isTrace item.notes = (item.result.toOption.bind trace?).toList := by
  have silent : entries isTrace (item.skipped.map argumentSkipped) = [] := by
    induction item.skipped with
    | nil => rfl
    | cons fault rest ih => exact ih
  unfold Item.notes
  rw [entries_append, silent, List.nil_append]
  cases item.result with
  | ok b => exact traces_ofBlock b
  | error fault => rfl

theorem traces_faultNotes (policy : ErrorPolicy) (fault : Fault) :
    entries isTrace (Pass.faultNotes policy fault) = [] := by
  unfold Pass.faultNotes
  cases fault.isFatal <;> cases policy <;> rfl

/-! ## Completions -/

/-- Whether a note is one of a build, but not the one that the run is complete. -/
def isOfBuild : Note → Bool
  | runStarted _ | argumentSkipped _ | blockApplied _ _ | positionKept _ => true
  | lineFailed _ | runHalted _ | runAborted | toolpathBuilt _ _ _ => true
  | _ => false

theorem isOfBuild_ofBlock (b : Block) : ∀ note ∈ ofBlock b, note.isOfBuild = true := by
  unfold ofBlock
  cases Command.ofWord? b.command with
  | none => simp
  | some command => dsimp only; split <;> simp [isOfBuild]

theorem isOfBuild_notes (item : Item) : ∀ note ∈ item.notes, note.isOfBuild = true := by
  intro note mem
  rcases List.mem_append.mp mem with left | applied
  · obtain ⟨fault, _, rfl⟩ := List.mem_map.mp left
    rfl
  · cases result : item.result with
    | error fault => simp [result] at applied
    | ok b =>
        rw [result] at applied
        exact isOfBuild_ofBlock b note applied

theorem isOfBuild_faultNotes (policy : ErrorPolicy) (fault : Fault) :
    ∀ note ∈ Pass.faultNotes policy fault, note.isOfBuild = true := by
  unfold Pass.faultNotes
  cases fault.isFatal <;> cases policy <;> simp [isOfBuild]

/-- How the messages of a build begin. -/
def openings : List String :=
  ["Starting ", "Skipping argument: ", "Line ", "Malformed argument '",
    "Unrecognized command at line ", "State invariant violated at line ",
    "Interpretation halted: ", "Aborting interpretation", "Toolpath built: "]

theorem begins_opening {note : Note} (h : note.isOfBuild = true) :
    ∃ opening ∈ openings, begins opening note.message = true := by
  cases note with
  | runStarted bytes =>
      refine ⟨"Starting ", by decide, ?_⟩
      iterate 2 refine begins_append_of_begins ?_ _
      decide
  | argumentSkipped fault => exact ⟨"Skipping argument: ", by decide, begins_append _ _⟩
  | blockApplied b command =>
      refine ⟨"Line ", by decide, ?_⟩
      iterate 5 refine begins_append_of_begins ?_ _
      exact begins_append _ _
  | positionKept line =>
      exact ⟨"Line ", by decide, begins_append_of_begins (begins_append _ _) _⟩
  | lineFailed fault =>
      cases fault with
      | malformedArgument n word defect =>
          refine ⟨"Malformed argument '", by decide, ?_⟩
          iterate 4 refine begins_append_of_begins ?_ _
          exact begins_append _ _
      | unknownCommand n command =>
          refine ⟨"Unrecognized command at line ", by decide, ?_⟩
          iterate 2 refine begins_append_of_begins ?_ _
          exact begins_append _ _
      | notFinite n quantity =>
          refine ⟨"State invariant violated at line ", by decide, ?_⟩
          iterate 2 refine begins_append_of_begins ?_ _
          exact begins_append _ _
  | runHalted fault => exact ⟨"Interpretation halted: ", by decide, begins_append _ _⟩
  | runAborted => exact ⟨"Aborting interpretation", by decide, by decide⟩
  | toolpathBuilt segments layers diagnostics =>
      refine ⟨"Toolpath built: ", by decide, ?_⟩
      iterate 5 refine begins_append_of_begins ?_ _
      exact begins_append _ _
  | _ => cases h

/-- No other note of a build reads as if the run were complete. -/
theorem completions_eq_nil {log : List Note} (h : ∀ note ∈ log, note.isOfBuild = true) :
    entries isCompletion log = [] := by
  have apart : ∀ opening ∈ openings, begins "Interpretation complete: " opening = false ∧
      begins opening "Interpretation complete: " = false := by
    decide
  unfold entries
  rw [List.filter_eq_nil_iff]
  intro e mem complete
  obtain ⟨note, inside, rfl⟩ := List.mem_map.mp mem
  obtain ⟨opening, known, start⟩ := begins_opening (h note inside)
  rcases begins_or_begins complete start with within | within
  · exact Bool.eq_false_iff.mp (apart opening known).1 within
  · exact Bool.eq_false_iff.mp (apart opening known).2 within

end Note

end PrintPath
