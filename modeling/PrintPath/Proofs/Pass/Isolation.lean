import PrintPath.Proofs.Pass.Lines

/-!
# Faults stay on their lines

A fault that does not end the run leaves no trace: the run without its line is
the same run, with the same moves on the same lines, the same fatal fault at the
end if there was one, and the same machine behind it.
-/

namespace PrintPath

/-- Whether an outcome is a fault after which a run may go on. -/
def isNonFatal : Outcome → Bool
  | .ok _ => false
  | .error fault => !fault.isFatal

/-- Whether some outcome is a fault on the line, and not a fatal one. -/
def nonFatalOn (outcomes : List Outcome) (n : Nat) : Bool :=
  outcomes.any fun outcome => isNonFatal outcome && outcomeLine outcome == n

theorem nonFatalOn_cons_of_line {outcome : Outcome} {n : Nat} (h : isNonFatal outcome = true)
    (about : outcomeLine outcome = n) (rest : List Outcome) :
    nonFatalOn (outcome :: rest) n = true := by
  simp [nonFatalOn, h, about]

theorem nonFatalOn_cons_of_line_ne {outcome : Outcome} {n : Nat} (h : outcomeLine outcome ≠ n)
    (rest : List Outcome) : nonFatalOn (outcome :: rest) n = nonFatalOn rest n := by
  simp [nonFatalOn, h]

theorem nonFatalOn_cons_of_not {outcome : Outcome} (h : isNonFatal outcome = false) (n : Nat)
    (rest : List Outcome) : nonFatalOn (outcome :: rest) n = nonFatalOn rest n := by
  simp [nonFatalOn, h]

theorem nonFatalOn_of_not_mem {outcomes : List Outcome} {n : Nat}
    (h : n ∉ outcomes.map outcomeLine) : nonFatalOn outcomes n = false := by
  induction outcomes with
  | nil => rfl
  | cons outcome rest ih =>
      rw [List.map_cons, List.mem_cons, not_or] at h
      obtain ⟨other, later⟩ := h
      rw [nonFatalOn_cons_of_line_ne (Ne.symm other), ih later]

namespace Pass

open Program

/-- A run does not report on the lines before its own. -/
theorem nonFatalOn_of_before {ls : List (List Char × Nat)} {n : Nat}
    (before : ∀ l ∈ ls, n < l.2) (s : Strictness) (m : Machine) :
    nonFatalOn (outcomesOf .bestEffort m (itemsOn s ls)) n = false := by
  refine nonFatalOn_of_not_mem fun mem => ?_
  have own := (outcomeLines_sublist .bestEffort s m ls).subset mem
  obtain ⟨l, here, rfl⟩ := List.mem_map.mp own
  exact Nat.lt_irrefl l.2 (before l here)

/-- **Error isolation, on numbered lines.** The lines that are made empty are
those with a fault that is not fatal. As every line has a number of its own,
what is chosen among the later lines does not depend on the earlier ones. -/
theorem run_emptyLines (s : Strictness) (chosen : Nat → Bool) (m : Machine)
    (ls : List (List Char × Nat)) (ascending : ls.Pairwise (·.2 < ·.2))
    (faulty : ∀ l ∈ ls, chosen l.2 = nonFatalOn (outcomesOf .bestEffort m (itemsOn s ls)) l.2) :
    outcomesOf .bestEffort m (itemsOn s (emptyLines chosen ls)) =
        (outcomesOf .bestEffort m (itemsOn s ls)).filter (fun o => !isNonFatal o) ∧
      settled .bestEffort m (itemsOn s (emptyLines chosen ls)) =
        settled .bestEffort m (itemsOn s ls) := by
  induction m, ls using lines_induction (s := s) with
  | nil m => exact ⟨rfl, rfl⟩
  | blank m line n rest given ih =>
      rw [itemsOn_emptyLines_of_blank chosen rest given]
      rw [itemsOn_of_blank given] at faulty ⊢
      exact ih ascending.of_cons fun l mem => faulty l (List.mem_cons_of_mem _ mem)
  | fault m line n rest item fault given h about ih =>
      obtain ⟨before, ascending⟩ := List.pairwise_cons.mp ascending
      rw [itemsOn_of_item given] at faulty ⊢
      by_cases fatal : ends .bestEffort fault = true
      · -- The run ends here, and so do the faults: this line stays.
        have kind : isNonFatal (.error fault) = false := by simpa [isNonFatal] using fatal
        have kept : chosen n = false := by
          rw [faulty (line, n) List.mem_cons_self, outcomesOf_of_ends h fatal]
          exact nonFatalOn_cons_of_not kind n []
        rw [itemsOn_emptyLines_of_item chosen rest given kept]
        rw [outcomesOf_of_ends h fatal, outcomesOf_of_ends h fatal, settled_of_ends h fatal,
          settled_of_ends h fatal, List.filter_cons_of_pos (by rw [kind]; rfl)]
        exact ⟨rfl, rfl⟩
      · -- This line goes, and its fault chooses none of the later ones.
        have kind : isNonFatal (.error fault) = true := by simpa [isNonFatal] using fatal
        rw [outcomesOf_of_not_ends h fatal] at faulty ⊢
        have gone : chosen n = true := by
          rw [faulty (line, n) List.mem_cons_self]
          exact nonFatalOn_cons_of_line kind about _
        rw [itemsOn_emptyLines_of_chosen chosen rest gone, settled_of_not_ends h fatal,
          List.filter_cons_of_neg (by rw [kind]; exact Bool.false_ne_true)]
        refine ih ascending fun l mem => ?_
        have other : outcomeLine (.error fault) ≠ l.2 := by
          show fault.line ≠ l.2
          rw [about]
          exact Nat.ne_of_lt (before l mem)
        rw [faulty l (List.mem_cons_of_mem _ mem), nonFatalOn_cons_of_line_ne other]
  | move m line n rest item m' move given h about ih =>
      obtain ⟨before, ascending⟩ := List.pairwise_cons.mp ascending
      rw [itemsOn_of_item given, outcomesOf_of_move h] at faulty
      -- A line that moves the machine is chosen by no fault of a later line.
      have kept : chosen n = false := by
        rw [faulty (line, n) List.mem_cons_self, nonFatalOn_cons_of_not rfl]
        exact nonFatalOn_of_before before s m'
      rw [itemsOn_emptyLines_of_item chosen rest given kept, itemsOn_of_item given]
      rw [outcomesOf_of_move h, outcomesOf_of_move h, settled_of_ok h, settled_of_ok h]
      have later := ih ascending fun l mem => by
        rw [faulty l (List.mem_cons_of_mem _ mem), nonFatalOn_cons_of_not rfl]
      exact ⟨congrArg _ later.1, later.2⟩
  | silence m line n rest item m' given h ih =>
      obtain ⟨before, ascending⟩ := List.pairwise_cons.mp ascending
      rw [itemsOn_of_item given, outcomesOf_of_silence h] at faulty
      have kept : chosen n = false := by
        rw [faulty (line, n) List.mem_cons_self]
        exact nonFatalOn_of_before before s m'
      rw [itemsOn_emptyLines_of_item chosen rest given kept, itemsOn_of_item given]
      rw [outcomesOf_of_silence h, outcomesOf_of_silence h, settled_of_ok h, settled_of_ok h]
      exact ih ascending fun l mem => faulty l (List.mem_cons_of_mem _ mem)

/-- **Error isolation.** Run a program to its end in best-effort mode, then make
every line empty that was reported with a fault that is not fatal. The second
program gives the outcomes of the first one without those faults, with the same
fatal fault last if there was one and no other fault, and it leaves the same
machine behind. -/
theorem faults_isolated (program : String) (s : Strictness) :
    let p := ofProgram program ⟨s, .bestEffort⟩
    let q := ofProgram (emptied (nonFatalOn p.outcomes) program) ⟨s, .bestEffort⟩
    q.outcomes = p.outcomes.filter (fun o => !isNonFatal o) ∧
    (∀ fault ∈ faultsOf p.outcomes, fault.isFatal = true →
      q.outcomes.getLast? = some (.error fault)) ∧
    (∀ fault ∈ faultsOf q.outcomes, fault.isFatal = true) ∧
    q.finished.machine = p.finished.machine := by
  intro p q
  have first : p.outcomes =
      outcomesOf .bestEffort .initial (itemsOn s (numbered program)) :=
    outcomes_ofProgram program ⟨s, .bestEffort⟩
  have second : q.outcomes = outcomesOf .bestEffort .initial
      (itemsOn s (emptyLines (nonFatalOn p.outcomes) (numbered program))) := by
    rw [← numbered_emptied]
    exact outcomes_ofProgram _ ⟨s, .bestEffort⟩
  obtain ⟨same, machine⟩ := run_emptyLines s (nonFatalOn p.outcomes) .initial (numbered program)
    (ascending_numbered program) fun l _ => by rw [first]
  rw [← first, ← second] at same
  refine ⟨same, fun fault mem fatal => ?_, fun fault mem => ?_, ?_⟩
  · have kept : .error fault ∈ q.outcomes := by
      rw [same]
      exact List.mem_filter.mpr ⟨mem_faultsOf.mp mem, by simp [isNonFatal, fatal]⟩
    rw [second] at kept ⊢
    exact getLast?_of_ends kept (by rw [ends_bestEffort, fatal])
  · rw [same] at mem
    simpa [isNonFatal] using (List.mem_filter.mp (mem_faultsOf.mp mem)).2
  · rw [finished_ofProgram, finished_ofProgram, items_eq, items_eq, numbered_emptied]
    exact machine

end Pass

end PrintPath
