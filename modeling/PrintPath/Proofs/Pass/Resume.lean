import PrintPath.Proofs.Pass.Prefix
import PrintPath.Proofs.Pass.Request
import PrintPath.Proofs.Program.Shift

/-!
# Two programs in one

A pass over two programs, one behind the other, is the pass over the first, taken up
again at its end with the items of the second. Machine and counts go on from where
they stood. If a fault ends the first program, nothing of the second is seen.
-/

namespace PrintPath

/-- What a caller sees after a turn: the outcome, the machine and the two counts. -/
structure View where
  outcome : Option Outcome
  machine : Machine
  moves : Nat
  faults : Nat

def Turn.view (turn : Turn) : View :=
  ⟨turn.outcome, turn.pass.machine, turn.pass.moves, turn.pass.faults⟩

namespace Pass

/-- What a caller sees of a pass, turn by turn. -/
def views (p : Pass) : List View :=
  p.turns.map Turn.view

/-- The view of a pass that has nothing more to report. -/
def lastView (p : Pass) : View :=
  ⟨none, p.machine, p.moves, p.faults⟩

/-- A pass taken up again with other items. -/
def resume (p : Pass) (items : List Item) : Pass :=
  { p with pending := items, halted := false }

/-! ## Counting what is reported -/

/-- The views of some reports, counted from `k` moves and `l` faults on. -/
def tally (k l : Nat) : List (Outcome × Machine) → List View
  | [] => []
  | (.ok move, m) :: rest => ⟨some (.ok move), m, k + 1, l⟩ :: tally (k + 1) l rest
  | (.error fault, m) :: rest => ⟨some (.error fault), m, k, l + 1⟩ :: tally k (l + 1) rest

/-- The numbers of moves and of faults among some reports. -/
def moveCount (reported : List (Outcome × Machine)) : Nat :=
  (movesOf (reported.map Prod.fst)).length

def faultCount (reported : List (Outcome × Machine)) : Nat :=
  (faultsOf (reported.map Prod.fst)).length

theorem tally_append (k l : Nat) (xs ys : List (Outcome × Machine)) :
    tally k l (xs ++ ys) = tally k l xs ++ tally (k + moveCount xs) (l + faultCount xs) ys := by
  induction xs generalizing k l with
  | nil => rfl
  | cons x xs ih =>
      obtain ⟨outcome, m⟩ := x
      cases outcome with
      | ok move =>
          have count : k + 1 + moveCount xs = k + moveCount ((.ok move, m) :: xs) :=
            Nat.succ_add_eq_add_succ _ _
          rw [List.cons_append, tally, ih, count]
          rfl
      | error fault =>
          have count : l + 1 + faultCount xs = l + faultCount ((.error fault, m) :: xs) :=
            Nat.succ_add_eq_add_succ _ _
          rw [List.cons_append, tally, ih, count]
          rfl

theorem moveCount_append (xs ys : List (Outcome × Machine)) :
    moveCount (xs ++ ys) = moveCount xs + moveCount ys := by
  simp [moveCount, movesOf, List.filterMap_append]

theorem faultCount_append (xs ys : List (Outcome × Machine)) :
    faultCount (xs ++ ys) = faultCount xs + faultCount ys := by
  simp [faultCount, faultsOf, List.filterMap_append]

/-- A pass that reports nothing more keeps its counts. -/
theorem counts_of_ended {p : Pass} (quiet : p.next.outcome = none) :
    p.next.pass.moves = p.moves ∧ p.next.pass.faults = p.faults ∧
      p.next.pass.policy = p.policy := by
  cases running : p.halted with
  | true =>
      have still : p.next = ⟨none, p, []⟩ := if_pos running
      rw [still]
      exact ⟨rfl, rfl, rfl⟩
  | false =>
      have answer := answers_next running
      generalize p.next = turn at quiet answer
      cases answer with
      | ended silent => exact ⟨rfl, rfl, rfl⟩
      | failed split silent run => cases quiet
      | moved split silent run => cases quiet

/-- A request counts what it reports. -/
theorem tally_of_outcome {p : Pass} {outcome : Outcome} (first : p.next.outcome = some outcome)
    (rest : List (Outcome × Machine)) :
    let q := p.next.pass
    let reported := (outcome, q.machine) :: rest
    p.next.view :: tally q.moves q.faults rest = tally p.moves p.faults reported ∧
      q.moves + moveCount rest = p.moves + moveCount reported ∧
      q.faults + faultCount rest = p.faults + faultCount reported ∧ q.policy = p.policy := by
  have answer := answers_next (running_of_outcome first)
  generalize p.next = turn at first answer
  cases answer with
  | ended silent => cases first
  | failed split silent run =>
      cases first
      exact ⟨rfl, rfl, Nat.succ_add_eq_add_succ _ _, rfl⟩
  | moved split silent run =>
      cases first
      exact ⟨rfl, Nat.succ_add_eq_add_succ _ _, rfl, rfl⟩

/-- A pass counts what it reports, and keeps its policy. -/
theorem views_eq (p : Pass) :
    p.views = tally p.moves p.faults (reports p.turns) ++ [p.finished.lastView] ∧
      p.finished.moves = p.moves + moveCount (reports p.turns) ∧
      p.finished.faults = p.faults + faultCount (reports p.turns) ∧
      p.finished.policy = p.policy := by
  induction p using turns_induction with
  | ended p quiet =>
      obtain ⟨moves, faults, policy⟩ := counts_of_ended quiet
      have silence : reports p.turns = [] := by
        rw [turns_of_ended quiet]
        simp [reports, quiet]
      rw [views, silence, turns_of_ended quiet, finished_of_ended quiet]
      refine ⟨?_, moves, faults, policy⟩
      rw [List.map_singleton, Turn.view, quiet]
      rfl
  | more p outcome first ih =>
      obtain ⟨told, moves, faults, policy⟩ := ih
      have report : reports p.turns =
          (outcome, p.next.pass.machine) :: reports p.next.pass.turns := by
        rw [turns_of_outcome first]
        simp [reports, first]
      obtain ⟨told₀, moves₀, faults₀, policy₀⟩ := tally_of_outcome first (reports p.next.pass.turns)
      rw [report, finished_of_outcome first]
      refine ⟨?_, moves.trans moves₀, faults.trans faults₀, policy.trans policy₀⟩
      rw [← told₀, List.cons_append, ← told, views, turns_of_outcome first]
      rfl

/-! ## Taking up again -/

/-- What a caller sees of running items on a machine, counted from `k` moves and `l`
faults on. -/
def account (policy : ErrorPolicy) (m : Machine) (k l : Nat) (items : List Item) : List View :=
  let reported := trace policy m items
  tally k l reported ++
    [⟨none, settled policy m items, k + moveCount reported, l + faultCount reported⟩]

theorem views_of_running {p : Pass} (running : p.halted = false) :
    p.views = account p.policy p.machine p.moves p.faults p.pending := by
  obtain ⟨told, moves, faults, _⟩ := views_eq p
  rw [told, lastView, moves, faults, reports_turns running, finished_machine running]
  rfl

theorem account_append (policy : ErrorPolicy) (m : Machine) (k l : Nat) (is js : List Item) :
    account policy m k l (is ++ js) =
      if GoesOn policy m is then
        (account policy m k l is).dropLast ++
          account policy (settled policy m is) (k + moveCount (trace policy m is))
            (l + faultCount (trace policy m is)) js
      else account policy m k l is := by
  obtain ⟨reported, machine⟩ := trace_append policy m is js
  unfold account
  dsimp only
  rw [reported, machine]
  split
  · rw [tally_append, moveCount_append, faultCount_append, List.dropLast_concat,
      List.append_assoc, Nat.add_assoc, Nat.add_assoc]
  · rw [List.append_nil]

theorem views_append {p : Pass} (running : p.halted = false) (js : List Item) :
    (p.resume (p.pending ++ js)).views =
      if GoesOn p.policy p.machine p.pending then
        p.views.dropLast ++ (p.finished.resume js).views
      else p.views := by
  obtain ⟨_, moves, faults, policy⟩ := views_eq p
  have later : (p.finished.resume js).views = account p.policy
      (settled p.policy p.machine p.pending)
      (p.moves + moveCount (trace p.policy p.machine p.pending))
      (p.faults + faultCount (trace p.policy p.machine p.pending)) js := by
    rw [← reports_turns running, ← moves, ← faults, ← finished_machine running, ← policy]
    exact views_of_running rfl
  rw [later, views_of_running running, ← account_append]
  exact views_of_running rfl

theorem outcomes_eq_views (p : Pass) : p.outcomes = p.views.filterMap View.outcome := by
  rw [views, List.filterMap_map]
  rfl

/-- The last view is the only one without an outcome. -/
theorem outcomes_eq_dropLast (p : Pass) :
    p.outcomes = p.views.dropLast.filterMap View.outcome := by
  obtain ⟨told, _⟩ := views_eq p
  rw [outcomes_eq_views, told, List.dropLast_concat, List.filterMap_append]
  exact List.append_nil _

/-- **Two programs in one.** The items of two programs with a line feed between them
are those of the first and then those of the second, further down by the number of
lines of the first. If no fault ends the pass over the first program, the pass over
both is taken up again where the first one has ended, and its counts go on.
Otherwise it is the pass over the first program. -/
theorem two_programs (p q : String) :
    let lines := p.toList.count '\n' + 1
    (∀ s, Program.items s (p ++ "\n" ++ q) =
      Program.items s p ++ (Program.items s q).map (Item.shift lines)) ∧
    ∀ reading : ReadingOptions,
      let first := ofProgram p reading
      let both := ofProgram (p ++ "\n" ++ q) reading
      let later := first.finished.resume
        ((Program.items reading.strictness q).map (Item.shift lines))
      ((∀ fault, .error fault ∈ first.outcomes → ends reading.errorPolicy fault = false) →
        both.outcomes = first.outcomes ++ later.outcomes ∧
        both.views = first.views.dropLast ++ later.views) ∧
      ((∃ fault, .error fault ∈ first.outcomes ∧ ends reading.errorPolicy fault = true) →
        both.outcomes = first.outcomes ∧ both.views = first.views) := by
  intro lines
  refine ⟨fun s => Program.items_append s p q, fun reading => ?_⟩
  intro first both later
  have joined : both = first.resume (first.pending ++
      (Program.items reading.strictness q).map (Item.shift lines)) := by
    have items := Program.items_append reading.strictness p q
    show ofProgram (p ++ "\n" ++ q) reading = _
    rw [ofProgram, items]
    rfl
  have views : both.views = if GoesOn reading.errorPolicy .initial first.pending then
      first.views.dropLast ++ later.views else first.views := by
    rw [joined]
    exact views_append rfl _
  constructor
  · intro mild
    have goesOn : GoesOn reading.errorPolicy .initial first.pending := by
      intro fault mem
      refine mild fault ?_
      rw [outcomes_ofProgram]
      exact mem_faultsOf.mp mem
    rw [if_pos goesOn] at views
    refine ⟨?_, views⟩
    rw [outcomes_eq_views both, views, List.filterMap_append, ← outcomes_eq_dropLast,
      ← outcomes_eq_views]
  · rintro ⟨fault, mem, final⟩
    have stops : ¬ GoesOn reading.errorPolicy .initial first.pending := by
      intro goesOn
      rw [outcomes_ofProgram] at mem
      have mild := goesOn fault (mem_faultsOf.mpr mem)
      rw [final] at mild
      cases mild
    rw [if_neg stops] at views
    refine ⟨?_, views⟩
    rw [outcomes_eq_views, outcomes_eq_views, views]

end Pass

end PrintPath
