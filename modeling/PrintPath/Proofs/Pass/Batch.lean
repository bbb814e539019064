import PrintPath.Proofs.Pass.Handoff
import PrintPath.Proofs.Pass.Request
import PrintPath.Proofs.Pass.Strictness
import PrintPath.Proofs.Toolpath.Build

/-!
# The pass and the plain fold

The plain fold reads a whole program first and then takes its items one by one, with
everything that it reports kept in a list. A pass that is asked for one outcome at
a time tells the same: whenever it stops for an outcome, it stands where the fold
stands right after that item, and the items behind it are still untouched.
-/

namespace PrintPath

/-- What the plain fold has come to. -/
structure Batch where
  machine : Machine := .initial
  /-- The outcomes so far, each with the machine that it left behind. -/
  reported : List (Outcome × Machine) := []
  /-- Whether a fault has ended the run. -/
  ended : Bool := false

namespace Batch

variable (policy : ErrorPolicy)

def fail (b : Batch) (fault : Fault) : Batch :=
  { b with reported := b.reported ++ [(.error fault, b.machine)], ended := Pass.ends policy fault }

/-- Takes one more item. A line that was refused is reported and not run, and nothing
is taken once the run is over. -/
def take (b : Batch) (item : Item) : Batch :=
  if b.ended then b
  else match item.result with
    | .error fault => b.fail policy fault
    | .ok block =>
      match b.machine.step block with
      | .error fault => b.fail policy fault
      | .ok (m, none) => { b with machine := m }
      | .ok (m, some move) => { b with machine := m, reported := b.reported ++ [(.ok move, m)] }

/-- The fold over some items, from a machine that has just been switched on. -/
def ofItems (items : List Item) : Batch :=
  items.foldl (take policy) {}

section Items

variable {policy} {m m' : Machine} {item : Item} (reported : List (Outcome × Machine))

theorem take_of_fault {fault : Fault} (h : item.run m = .error fault) :
    take policy ⟨m, reported, false⟩ item =
      ⟨m, reported ++ [(.error fault, m)], Pass.ends policy fault⟩ := by
  unfold take
  rcases Item.run_eq_error_iff.mp h with refused | ⟨block, read, step⟩
  · rw [refused]
    rfl
  · rw [read]
    dsimp only
    rw [step]
    rfl

theorem take_of_silence (h : item.run m = .ok (m', none)) :
    take policy ⟨m, reported, false⟩ item = ⟨m', reported, false⟩ := by
  obtain ⟨block, read, step⟩ := Item.run_eq_ok_iff.mp h
  unfold take
  rw [read]
  dsimp only
  rw [step]
  rfl

theorem take_of_move {move : Move} (h : item.run m = .ok (m', some move)) :
    take policy ⟨m, reported, false⟩ item = ⟨m', reported ++ [(.ok move, m')], false⟩ := by
  obtain ⟨block, read, step⟩ := Item.run_eq_ok_iff.mp h
  unfold take
  rw [read]
  dsimp only
  rw [step]
  rfl

theorem foldl_take_of_ended (items : List Item) :
    items.foldl (take policy) ⟨m, reported, true⟩ = ⟨m, reported, true⟩ := by
  induction items with
  | nil => rfl
  | cons item rest ih => exact ih

end Items

/-! ## The fold in one -/

/-- The fold over the items that are left. -/
theorem foldl_take (policy : ErrorPolicy) (m : Machine) (reported : List (Outcome × Machine))
    (items : List Item) :
    items.foldl (take policy) ⟨m, reported, false⟩ =
      ⟨Pass.settled policy m items, reported ++ Pass.trace policy m items,
        (faultsOf (Pass.outcomesOf policy m items)).any (Pass.ends policy)⟩ := by
  induction m, items using Pass.run_induction generalizing reported with
  | nil m =>
      rw [List.foldl_nil, Pass.trace, List.append_nil]
      rfl
  | fault m item rest fault h ih =>
      rw [List.foldl_cons, take_of_fault reported h, Pass.trace_of_fault h]
      cases final : Pass.ends policy fault with
      | true =>
          rw [foldl_take_of_ended, Pass.settled_of_ends h final, Pass.outcomesOf_of_ends h final,
            if_pos rfl]
          simp [final]
      | false =>
          have mild := Bool.eq_false_iff.mp final
          rw [ih, Pass.settled_of_not_ends h mild, Pass.outcomesOf_of_not_ends h mild,
            if_neg Bool.false_ne_true]
          simp [final]
  | move m item rest m' move h ih =>
      rw [List.foldl_cons, take_of_move reported h, ih, Pass.settled_of_ok h,
        Pass.trace_of_move h, Pass.outcomesOf_of_move h, faultsOf_move, List.append_assoc,
        List.singleton_append]
  | silence m item rest m' h ih =>
      rw [List.foldl_cons, take_of_silence reported h, ih, Pass.settled_of_ok h,
        Pass.trace_of_silence h, Pass.outcomesOf_of_silence h]

theorem ofItems_eq (policy : ErrorPolicy) (items : List Item) :
    ofItems policy items =
      ⟨Pass.settled policy .initial items, Pass.trace policy .initial items,
        (faultsOf (Pass.outcomesOf policy .initial items)).any (Pass.ends policy)⟩ :=
  foldl_take policy .initial [] items

/-- A fold that no fault has ended has run all blocks among its items. -/
theorem machine_of_not_ended {policy : ErrorPolicy} {items : List Item}
    (h : (ofItems policy items).ended = false) :
    (ofItems policy items).machine = Machine.initial.run (Pass.blocksOf items) := by
  rw [ofItems_eq] at h ⊢
  refine Pass.settled_eq_run fun fault mem => ?_
  exact Bool.eq_false_iff.mpr (List.any_eq_false.mp h fault mem)

/-! ## The fold and one request -/

theorem foldl_take_of_silently {policy : ErrorPolicy} {m m' : Machine} {items : List Item}
    (h : Pass.Silently m items m') (reported : List (Outcome × Machine)) :
    items.foldl (take policy) ⟨m, reported, false⟩ = ⟨m', reported, false⟩ := by
  induction h with
  | nil m => rfl
  | cons quiet _ ih => rw [List.foldl_cons, take_of_silence reported quiet, ih]

/-- When a pass stops for an outcome, it stands where the fold stands right after the
item of that outcome. -/
theorem foldl_take_of_answers {p : Pass} {items : List Item} {turn : Turn} {outcome : Outcome}
    (running : p.halted = false) (h : Pass.Answers p items turn)
    (stops : turn.outcome = some outcome) (reported : List (Outcome × Machine)) :
    ∃ pre item, items = pre ++ item :: turn.pass.pending ∧
      (pre.foldl (take p.policy) ⟨p.machine, reported, false⟩).reported = reported ∧
      (pre ++ [item]).foldl (take p.policy) ⟨p.machine, reported, false⟩ =
        ⟨turn.pass.machine, reported ++ [(outcome, turn.pass.machine)], turn.pass.halted⟩ := by
  cases h with
  | ended silent => cases stops
  | @failed silent post item m fault notes split quiet run =>
      cases stops
      have before : silent.foldl (take p.policy) ⟨p.machine, reported, false⟩ =
          ⟨m, reported, false⟩ := foldl_take_of_silently quiet reported
      refine ⟨silent, item, split, by rw [before], ?_⟩
      rw [List.foldl_append, before]
      exact take_of_fault reported run
  | @moved silent post item m m' move notes split quiet run =>
      cases stops
      have before : silent.foldl (take p.policy) ⟨p.machine, reported, false⟩ =
          ⟨m, reported, false⟩ := foldl_take_of_silently quiet reported
      refine ⟨silent, item, split, by rw [before], ?_⟩
      rw [List.foldl_append, before]
      dsimp only
      rw [running]
      exact take_of_move reported run

/-! ## The fold and a sequence of requests -/

/-- Wherever a pass stops for an outcome, it stands where the fold stands right after
the item of that outcome, and the items behind that one are pending. -/
theorem foldl_take_of_turn {p : Pass} (running : p.halted = false)
    (reported : List (Outcome × Machine)) {k : Nat} {turn : Turn} {outcome : Outcome}
    (here : p.turns[k]? = some turn) (stops : turn.outcome = some outcome) :
    ∃ pre item, p.pending = pre ++ item :: turn.pass.pending ∧
      (pre.foldl (take p.policy) ⟨p.machine, reported, false⟩).reported =
        reported ++ Pass.reports (p.turns.take k) ∧
      (pre ++ [item]).foldl (take p.policy) ⟨p.machine, reported, false⟩ =
        ⟨turn.pass.machine,
          reported ++ Pass.reports (p.turns.take k) ++ [(outcome, turn.pass.machine)],
          turn.pass.halted⟩ := by
  induction k generalizing p reported with
  | zero =>
      rw [Pass.turns_eq] at here
      cases here
      obtain ⟨pre, item, split, before, after⟩ :=
        foldl_take_of_answers running (Pass.answers_next running) stops reported
      have none : reported ++ Pass.reports (p.turns.take 0) = reported := List.append_nil _
      rw [none]
      exact ⟨pre, item, split, before, after⟩
  | succ k ih =>
      have answer := Pass.answers_next running
      cases first : p.next.outcome with
      | none =>
          rw [Pass.turns_of_ended first] at here
          cases here
      | some outcome₀ =>
          rw [Pass.turns_of_outcome first, List.getElem?_cons_succ] at here
          have awake : p.next.pass.halted = false := by
            refine Bool.eq_false_iff.mpr fun halted => ?_
            rw [Pass.outcome_of_halted halted (List.mem_of_getElem? here)] at stops
            cases stops
          obtain ⟨pre₀, item₀, split₀, _, after₀⟩ :=
            foldl_take_of_answers running answer first reported
          obtain ⟨pre, item, split, before, after⟩ := ih awake
            (reported ++ [(outcome₀, p.next.pass.machine)]) here
          rw [awake] at after₀
          rw [answer.policy] at before after
          have told : reported ++ Pass.reports (p.turns.take (k + 1)) =
              reported ++ [(outcome₀, p.next.pass.machine)] ++
                Pass.reports (p.next.pass.turns.take k) := by
            rw [Pass.turns_of_outcome first]
            simp [Pass.reports, first]
          refine ⟨pre₀ ++ item₀ :: pre, item, ?_, ?_, ?_⟩
          · rw [split₀, split, List.append_assoc, List.cons_append]
          · rw [told, List.append_cons, List.foldl_append, after₀, before]
          · rw [told, List.append_cons pre₀ item₀ pre, List.append_assoc, List.foldl_append, after₀,
              after]

end Batch

namespace Pass

/-- A pass over blocks that are already read makes what a pass over their program
makes. -/
theorem ofBlocks_eq_ofProgram {program : String} {s : Strictness} {blocks : List Block}
    (read : (Program.items s program).map Item.result = blocks.map .ok) :
    (ofBlocks blocks).outcomes = (ofProgram program ⟨s, .bestEffort⟩).outcomes ∧
      (ofBlocks blocks).finished.machine =
        (ofProgram program ⟨s, .bestEffort⟩).finished.machine := by
  have same : (blocks.map Item.ofBlock).map Item.result =
      (Program.items s program).map Item.result := by
    rw [read, List.map_map]
    rfl
  obtain ⟨outcomes, machine⟩ := run_congr .bestEffort .initial same
  constructor
  · rw [outcomes_ofBlocks, outcomes_ofProgram, outcomes]
  · rw [finished_ofProgram, ← machine]
    exact finished_machine rfl

/-- **The pass is the plain fold.** A pass over a program reports what the plain fold
over its items reports, each outcome with the same machine, and ends with the
machine of the fold. If no fault has ended it, that is the machine after all blocks.
Wherever the pass stops, it has gone no further than the item of the outcome. A
build that succeeds is that of the moves alone, with the faults and the machine of
the fold, and a pass over the blocks of a program without faults is the pass over
the program. -/
theorem pass_eq_fold (program : String) (reading : ReadingOptions) :
    let items := Program.items reading.strictness program
    let whole := Batch.ofItems reading.errorPolicy items
    let p := ofProgram program reading
    reports p.turns = whole.reported ∧
    p.finished.machine = whole.machine ∧
    (whole.ended = false → whole.machine = Machine.initial.run (blocksOf items)) ∧
    (∀ k turn outcome, p.turns[k]? = some turn → turn.outcome = some outcome →
      ∃ pre item, items = pre ++ item :: turn.pass.pending ∧
        (Batch.ofItems reading.errorPolicy pre).reported = reports (p.turns.take k) ∧
        Batch.ofItems reading.errorPolicy (pre ++ [item]) =
          ⟨turn.pass.machine, reports (p.turns.take k) ++ [(outcome, turn.pass.machine)],
            turn.pass.halted⟩) ∧
    (∀ drawing t, Toolpath.ofProgram program reading drawing = .ok t →
      t = { Toolpath.ofMoves drawing (movesOf p.outcomes) with
        diagnostics := (faultsOf p.outcomes).toArray
        finalMachine := some whole.machine }) ∧
    (∀ blocks, items.map Item.result = blocks.map .ok →
      let trying := ofProgram program ⟨reading.strictness, .bestEffort⟩
      (ofBlocks blocks).outcomes = trying.outcomes ∧
        (ofBlocks blocks).finished.machine = trying.finished.machine) := by
  intro items whole p
  have fold : whole = ⟨settled reading.errorPolicy .initial items,
      trace reading.errorPolicy .initial items, _⟩ := Batch.ofItems_eq _ _
  have ends : p.finished.machine = whole.machine := by
    rw [fold]
    exact finished_machine rfl
  refine ⟨?_, ends, Batch.machine_of_not_ended, ?_, ?_, ?_⟩
  · rw [fold]
    exact reports_turns rfl
  · intro k turn outcome here stops
    exact Batch.foldl_take_of_turn rfl [] here stops
  · intro drawing t ok
    obtain ⟨rfl, _⟩ := Toolpath.eq_built_of_ok ok
    rw [← ends]
    simp [Toolpath.built, Toolpath.pushAll, Toolpath.withDiagnostics, Toolpath.empty,
      Toolpath.ofMoves, p]
  · exact fun blocks read => ofBlocks_eq_ofProgram read

end Pass

end PrintPath
