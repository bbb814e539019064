import PrintPath.Proofs.Pass.Policy
import PrintPath.Toolpath.Build

/-!
# What a build makes of a pass

A toolpath collects the outcomes of a pass: the moves are pushed in order, the
faults become diagnostics, and the first fault that ends a run is the answer
instead. The policy thus acts twice, on the pass and on the collection, and the
two agree.
-/

namespace PrintPath.Toolpath

open Pass (ends outcomesOf settled)

/-! ## Collecting -/

/-- The toolpath with other diagnostics. -/
def withDiagnostics (t : Toolpath) (diagnostics : Array Fault) : Toolpath :=
  { t with diagnostics := diagnostics }

/-- Pushing a move neither reads nor writes the diagnostics. -/
theorem push_withDiagnostics (t : Toolpath) (diagnostics : Array Fault) (m : Move) :
    (t.withDiagnostics diagnostics).push m = (t.push m).withDiagnostics diagnostics := by
  unfold push addLayer addSegment withDiagnostics
  dsimp only
  split
  · split <;> rfl
  · rfl

theorem foldl_push_withDiagnostics (t : Toolpath) (diagnostics : Array Fault)
    (moves : List Move) :
    moves.foldl push (t.withDiagnostics diagnostics) =
      (moves.foldl push t).withDiagnostics diagnostics := by
  induction moves generalizing t with
  | nil => rfl
  | cons move rest ih => rw [List.foldl_cons, push_withDiagnostics, ih, List.foldl_cons]

theorem diagnostics_push (t : Toolpath) (m : Move) :
    (t.push m).diagnostics = t.diagnostics := by
  calc (t.push m).diagnostics
      = ((t.withDiagnostics t.diagnostics).push m).diagnostics := rfl
    _ = ((t.push m).withDiagnostics t.diagnostics).diagnostics := by
        rw [push_withDiagnostics]
    _ = t.diagnostics := rfl

/-- The toolpath with some more moves, and their faults passed over. -/
def pushAll (t : Toolpath) (outcomes : List Outcome) : Toolpath :=
  ((movesOf outcomes).foldl push t).withDiagnostics
    (t.diagnostics ++ (faultsOf outcomes).toArray)

theorem pushAll_move (t : Toolpath) (move : Move) (rest : List Outcome) :
    t.pushAll (.ok move :: rest) = (t.push move).pushAll rest := by
  unfold pushAll
  rw [movesOf_move, faultsOf_move, List.foldl_cons, diagnostics_push]

theorem pushAll_fault (t : Toolpath) (fault : Fault) (rest : List Outcome) :
    t.pushAll (.error fault :: rest) =
      (t.withDiagnostics (t.diagnostics.push fault)).pushAll rest := by
  unfold pushAll
  rw [movesOf_fault, faultsOf_fault, foldl_push_withDiagnostics]
  simp [withDiagnostics]

/-- The first fault that ends a run ends the collection; other faults are
passed over. -/
theorem foldlM_collect (policy : ErrorPolicy) (t : Toolpath) (outcomes : List Outcome) :
    outcomes.foldlM (collect policy) t =
      match (faultsOf outcomes).find? (ends policy) with
      | some fault => .error fault
      | none => .ok (t.pushAll outcomes) := by
  induction outcomes generalizing t with
  | nil => simp [pushAll, withDiagnostics, pure, Except.pure]
  | cons outcome rest ih =>
      rw [List.foldlM_cons]
      cases outcome with
      | ok move =>
          rw [pushAll_move, faultsOf_move]
          exact ih (t.push move)
      | error fault =>
          rw [pushAll_fault, faultsOf_fault, List.find?_cons]
          cases final : ends policy fault with
          | true => simp [collect, final, bind, Except.bind]
          | false =>
              simp only [collect, final]
              exact ih (t.withDiagnostics (t.diagnostics.push fault))

/-! ## Building -/

/-- The toolpath of a run that was not ended by a fault. -/
def built (drawing : DrawingOptions) (outcomes : List Outcome) (m : Machine) : Toolpath :=
  { (empty drawing).pushAll outcomes with finalMachine := some m }

theorem diagnostics_built (drawing : DrawingOptions) (outcomes : List Outcome) (m : Machine) :
    (built drawing outcomes m).diagnostics.toList = faultsOf outcomes := by
  simp [built, pushAll, withDiagnostics, empty]

/-- A build in terms of the outcomes of its pass. -/
theorem ofProgram_eq (program : String) (reading : ReadingOptions) (drawing : DrawingOptions) :
    ofProgram program reading drawing =
      match (faultsOf (Pass.ofProgram program reading).outcomes).find?
          (ends reading.errorPolicy) with
      | some fault => .error fault
      | none => .ok (built drawing (Pass.ofProgram program reading).outcomes
          (Pass.ofProgram program reading).finished.machine) := by
  have last : Pass.lastMachine? (Pass.ofProgram program reading).turns =
      some (Pass.ofProgram program reading).finished.machine := by
    rw [Pass.lastMachine?_turns rfl, Pass.finished_machine rfl]
  unfold ofProgram ofTurns
  rw [← Pass.outcomes, foldlM_collect]
  cases (faultsOf (Pass.ofProgram program reading).outcomes).find?
      (ends reading.errorPolicy) with
  | some fault => rfl
  | none => exact congrArg (fun m? => Except.ok { pushAll (empty drawing) _ with
      finalMachine := m? }) last

/-- What is computed of a toolpath tells that it has been built. -/
theorem exists_ok_of_map {α : Type} {result : Except Fault Toolpath} {f : Toolpath → α} {a : α}
    (h : result.map f = .ok a) : ∃ t, result = .ok t ∧ f t = a := by
  cases result with
  | error fault => cases h
  | ok t => exact ⟨t, rfl, Except.ok.inj h⟩

/-! ## Building under the two policies -/

theorem ofProgram_eq_error_iff {program : String} {reading : ReadingOptions}
    {drawing : DrawingOptions} {fault : Fault} :
    ofProgram program reading drawing = .error fault ↔
      (faultsOf (Pass.ofProgram program reading).outcomes).find?
        (ends reading.errorPolicy) = some fault := by
  rw [ofProgram_eq]
  cases (faultsOf (Pass.ofProgram program reading).outcomes).find?
      (ends reading.errorPolicy) with
  | some first => simp
  | none => simp

theorem ofProgram_of_find?_none {program : String} {reading : ReadingOptions}
    (drawing : DrawingOptions)
    (h : (faultsOf (Pass.ofProgram program reading).outcomes).find?
      (ends reading.errorPolicy) = none) :
    ofProgram program reading drawing =
      .ok (built drawing (Pass.ofProgram program reading).outcomes
        (Pass.ofProgram program reading).finished.machine) := by
  rw [ofProgram_eq, h]

/-- Under best effort a build fails with the fatal fault of the pass, if there
is one. -/
theorem ofProgram_bestEffort_error_iff {program : String} {s : Strictness}
    {drawing : DrawingOptions} {fault : Fault} :
    ofProgram program ⟨s, .bestEffort⟩ drawing = .error fault ↔
      fault ∈ faultsOf (Pass.ofProgram program ⟨s, .bestEffort⟩).outcomes ∧
        fault.isFatal = true := by
  rw [ofProgram_eq_error_iff, Pass.outcomes_ofProgram, Pass.find?_ends_iff,
    Pass.ends_bestEffort]

/-- A build that succeeds is the toolpath of all outcomes of its pass, and none
of them ends a run. -/
theorem eq_built_of_ok {program : String} {reading : ReadingOptions} {drawing : DrawingOptions}
    {t : Toolpath} (h : ofProgram program reading drawing = .ok t) :
    t = built drawing (Pass.ofProgram program reading).outcomes
        (Pass.ofProgram program reading).finished.machine ∧
      ∀ fault ∈ faultsOf (Pass.ofProgram program reading).outcomes,
        ends reading.errorPolicy fault = false := by
  rw [ofProgram_eq] at h
  cases found : (faultsOf (Pass.ofProgram program reading).outcomes).find?
      (ends reading.errorPolicy) with
  | some fault =>
      rw [found] at h
      cases h
  | none =>
      rw [found] at h
      refine ⟨(Except.ok.inj h).symm, fun fault mem => ?_⟩
      exact Bool.eq_false_iff.mpr (List.find?_eq_none.mp found fault mem)

/-- A build that succeeds has passed over all faults of the pass. -/
theorem diagnostics_of_ok {program : String} {reading : ReadingOptions}
    {drawing : DrawingOptions} {t : Toolpath} (h : ofProgram program reading drawing = .ok t) :
    t.diagnostics.toList = faultsOf (Pass.ofProgram program reading).outcomes := by
  obtain ⟨rfl, _⟩ := eq_built_of_ok h
  exact diagnostics_built drawing _ _

/-- Under best effort a build succeeds if there is no fatal fault. -/
theorem ofProgram_bestEffort_ok {program : String} {s : Strictness} (drawing : DrawingOptions)
    (h : ∀ fault ∈ faultsOf (Pass.ofProgram program ⟨s, .bestEffort⟩).outcomes,
      fault.isFatal = false) :
    ∃ t, ofProgram program ⟨s, .bestEffort⟩ drawing = .ok t := by
  cases built : ofProgram program ⟨s, .bestEffort⟩ drawing with
  | ok t => exact ⟨t, rfl⟩
  | error fault =>
      obtain ⟨mem, fatal⟩ := ofProgram_bestEffort_error_iff.mp built
      rw [h fault mem] at fatal
      cases fatal

theorem faultsOf_abort (program : String) (s : Strictness) :
    faultsOf (Pass.ofProgram program ⟨s, .abort⟩).outcomes =
      (faultsOf (Pass.ofProgram program ⟨s, .bestEffort⟩).outcomes).take 1 := by
  rw [Pass.ofProgram_abort, faultsOf_upToFault]

/-- Under abort a build fails with the first fault of the pass. -/
theorem ofProgram_abort_error {program : String} {s : Strictness} (drawing : DrawingOptions)
    {fault : Fault} {rest : List Fault}
    (h : faultsOf (Pass.ofProgram program ⟨s, .bestEffort⟩).outcomes = fault :: rest) :
    ofProgram program ⟨s, .abort⟩ drawing = .error fault := by
  rw [ofProgram_eq_error_iff, faultsOf_abort, h]
  simp

/-- Without faults the two builds are one. -/
theorem ofProgram_abort_ok {program : String} {s : Strictness} (drawing : DrawingOptions)
    (h : faultsOf (Pass.ofProgram program ⟨s, .bestEffort⟩).outcomes = []) :
    ofProgram program ⟨s, .abort⟩ drawing = ofProgram program ⟨s, .bestEffort⟩ drawing := by
  have sameOutcomes : (Pass.ofProgram program ⟨s, .abort⟩).outcomes =
      (Pass.ofProgram program ⟨s, .bestEffort⟩).outcomes := by
    rw [Pass.ofProgram_abort, upToFault_of_faultsOf_eq_nil h]
  have sameEnd : (Pass.ofProgram program ⟨s, .abort⟩).finished.machine =
      (Pass.ofProgram program ⟨s, .bestEffort⟩).finished.machine := by
    rw [Pass.outcomes_ofProgram] at h
    rw [Pass.finished_ofProgram, Pass.finished_ofProgram]
    exact Pass.settled_abort h
  rw [ofProgram_of_find?_none drawing, ofProgram_of_find?_none drawing, sameOutcomes, sameEnd]
  · rw [h]
    rfl
  · rw [sameOutcomes, h]
    rfl

/-- **Abort and best effort agree.** The aborting pass is the other one up to
its first fault. The aborting build succeeds exactly if there is no fault, then
with the same toolpath, and otherwise answers with the first fault. The other
build fails exactly with the fatal fault, and otherwise keeps all faults as
diagnostics. -/
theorem abort_bestEffort_agree (program : String) (s : Strictness) (drawing : DrawingOptions) :
    let outcomes := (Pass.ofProgram program ⟨s, .bestEffort⟩).outcomes
    let aborting := ofProgram program ⟨s, .abort⟩ drawing
    let trying := ofProgram program ⟨s, .bestEffort⟩ drawing
    (Pass.ofProgram program ⟨s, .abort⟩).outcomes = upToFault outcomes ∧
    ((∃ t, aborting = .ok t) ↔ faultsOf outcomes = []) ∧
    (∀ t, aborting = .ok t → trying = .ok t ∧ t.diagnostics = #[]) ∧
    (∀ fault rest, faultsOf outcomes = fault :: rest → aborting = .error fault) ∧
    (∀ fault, trying = .error fault ↔
      .error fault ∈ outcomes ∧ ∃ n quantity, fault = .notFinite n quantity) ∧
    ((∀ n quantity, .error (.notFinite n quantity) ∉ outcomes) →
      ∃ t, trying = .ok t ∧ t.diagnostics.toList = faultsOf outcomes) := by
  intro outcomes aborting trying
  have clean (t : Toolpath) (ok : aborting = .ok t) : faultsOf outcomes = [] := by
    cases faults : faultsOf outcomes with
    | nil => rfl
    | cons fault rest =>
        have failed : aborting = .error fault := ofProgram_abort_error drawing faults
        rw [ok] at failed
        cases failed
  refine ⟨Pass.ofProgram_abort program s, ⟨fun ⟨t, ok⟩ => clean t ok, ?_⟩, ?_, ?_, ?_, ?_⟩
  · intro h
    have mild : ∀ fault ∈ faultsOf outcomes, fault.isFatal = false := by simp [h]
    obtain ⟨t, ok⟩ := ofProgram_bestEffort_ok drawing mild
    exact ⟨t, (ofProgram_abort_ok drawing h).trans ok⟩
  · intro t ok
    have same : aborting = trying := ofProgram_abort_ok drawing (clean t ok)
    have kept : t.diagnostics.toList = faultsOf outcomes := diagnostics_of_ok (same ▸ ok)
    rw [clean t ok] at kept
    exact ⟨same ▸ ok, Array.toList_eq_nil_iff.mp kept⟩
  · exact fun fault rest h => ofProgram_abort_error drawing h
  · intro fault
    rw [← mem_faultsOf, ← Fault.isFatal_iff]
    exact ofProgram_bestEffort_error_iff
  · intro harmless
    have mild : ∀ fault ∈ faultsOf outcomes, fault.isFatal = false := by
      intro fault mem
      cases fatal : fault.isFatal with
      | false => rfl
      | true =>
          obtain ⟨n, quantity, rfl⟩ := Fault.isFatal_iff.mp fatal
          exact absurd (mem_faultsOf.mp mem) (harmless n quantity)
    obtain ⟨t, ok⟩ := ofProgram_bestEffort_ok drawing mild
    exact ⟨t, ok, diagnostics_of_ok ok⟩

end PrintPath.Toolpath
