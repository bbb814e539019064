import PrintPath.Pass

/-!
# A pass is a fold

A pass is asked for one outcome at a time and draws no more items than it
needs. Asked to the end, it reports exactly what the fold `trace` over all its
items lists, each outcome with the same machine behind it, and it ends with the
machine of that fold. Later proofs are inductions over the items and never look
at a request again.
-/

namespace PrintPath

namespace Item

variable {item : Item} {m : Machine}

theorem run_eq_ok_iff {r : Machine × Option Move} :
    item.run m = .ok r ↔ ∃ b, item.result = .ok b ∧ m.step b = .ok r := by
  unfold run
  cases item.result with
  | ok b =>
      constructor
      · exact fun h => ⟨b, rfl, h⟩
      · rintro ⟨_, same, h⟩
        cases same
        exact h
  | error refusal =>
      constructor
      · intro h
        cases h
      · rintro ⟨_, same, _⟩
        cases same

/-- A fault is that of the line or of the step. -/
theorem run_eq_error_iff {fault : Fault} :
    item.run m = .error fault ↔
      item.result = .error fault ∨ ∃ b, item.result = .ok b ∧ m.step b = .error fault := by
  unfold run
  cases item.result with
  | ok b =>
      constructor
      · exact fun h => Or.inr ⟨b, rfl, h⟩
      · rintro (other | ⟨_, same, h⟩)
        · cases other
        · cases same
          exact h
  | error refusal =>
      constructor
      · intro h
        cases h
        exact Or.inl rfl
      · rintro (same | ⟨_, other, _⟩)
        · cases same
          rfl
        · cases other

end Item

namespace Pass

/-! ## The turns of a pass -/

/-- The turns that begin with a given one. -/
def turnsFrom (turn : Turn) : List Turn :=
  turn :: if turn.outcome.isSome then turn.pass.turns else []

theorem turnsOnto_eq (done : Array Turn) (p : Pass) :
    (turnsOnto done p).toList = done.toList ++ turnsFrom p.next := by
  induction size : p.pending.length using Nat.strongRecOn generalizing done p with
  | ind size' ih =>
      subst size
      rw [turnsOnto]
      by_cases more : p.next.outcome.isSome
      · have shorter := next_pending_length more
        have rest := ih _ shorter #[] p.next.pass rfl
        simp only [more, if_true, turnsFrom]
        rw [ih _ shorter (done.push p.next) p.next.pass rfl]
        simp [turns, rest, turnsFrom]
      · simp [more, turnsFrom]

theorem turns_eq (p : Pass) : p.turns = turnsFrom p.next :=
  turnsOnto_eq #[] p

theorem turns_ne_nil (p : Pass) : p.turns ≠ [] := by
  rw [turns_eq]
  exact List.cons_ne_nil _ _

theorem turns_of_halted {p : Pass} (h : p.halted = true) : p.turns = [⟨none, p, []⟩] := by
  rw [turns_eq]
  simp [next, h, turnsFrom]

theorem turns_of_running {p : Pass} (h : p.halted = false) :
    p.turns = turnsFrom (p.draw #[] p.pending) := by
  rw [turns_eq]
  simp [next, h]

/-! ## What a pass reports -/

/-- The outcomes of some turns, each with the machine that it left behind. -/
def reports (turns : List Turn) : List (Outcome × Machine) :=
  turns.filterMap fun turn => turn.outcome.map fun outcome => (outcome, turn.pass.machine)

/-- The machine after the last of some turns. -/
def lastMachine? (turns : List Turn) : Option Machine :=
  turns.getLast?.map fun turn => turn.pass.machine

/-- The machine at the end of running items. -/
def settled (policy : ErrorPolicy) (m : Machine) : List Item → Machine
  | [] => m
  | item :: rest =>
    match item.run m with
    | .error fault => if ends policy fault then m else settled policy m rest
    | .ok (m', _) => settled policy m' rest

section Items

variable {policy : ErrorPolicy} {m m' : Machine} {item : Item} {rest : List Item}

theorem trace_of_fault {fault : Fault} (h : item.run m = .error fault) :
    trace policy m (item :: rest) =
      (.error fault, m) :: if ends policy fault then [] else trace policy m rest := by
  simp [trace, h]

theorem trace_of_move {move : Move} (h : item.run m = .ok (m', some move)) :
    trace policy m (item :: rest) = (.ok move, m') :: trace policy m' rest := by
  simp [trace, h]

theorem trace_of_silence (h : item.run m = .ok (m', none)) :
    trace policy m (item :: rest) = trace policy m' rest := by
  simp [trace, h]

theorem settled_of_fault {fault : Fault} (h : item.run m = .error fault) :
    settled policy m (item :: rest) =
      if ends policy fault then m else settled policy m rest := by
  simp [settled, h]

theorem settled_of_ok {o : Option Move} (h : item.run m = .ok (m', o)) :
    settled policy m (item :: rest) = settled policy m' rest := by
  simp [settled, h]

end Items

theorem reports_cons (outcome : Outcome) (p : Pass) (notes : List Note) :
    reports (turnsFrom ⟨some outcome, p, notes⟩) = (outcome, p.machine) :: reports p.turns := rfl

theorem lastMachine?_cons (outcome : Outcome) (p : Pass) (notes : List Note) :
    lastMachine? (turnsFrom ⟨some outcome, p, notes⟩) = lastMachine? p.turns := by
  obtain ⟨first, rest, eq⟩ := List.exists_cons_of_ne_nil (turns_ne_nil p)
  simp [lastMachine?, turnsFrom, eq, List.getLast?_cons_cons]

/-- A draw and the turns after it tell the fold over the items that are left.
The machine changes under way, so the statement is for every pass. -/
theorem turnsFrom_draw (p : Pass) (said : Array Note) (items : List Item)
    (running : p.halted = false) :
    reports (turnsFrom (p.draw said items)) = trace p.policy p.machine items ∧
    lastMachine? (turnsFrom (p.draw said items)) = some (settled p.policy p.machine items) := by
  induction items generalizing p said with
  | nil => exact ⟨rfl, rfl⟩
  | cons item rest ih =>
      -- A turn with an outcome is followed by the turns of the pass it left.
      have later (q : Pass) (awake : q.halted = false) (left : q.pending = rest) :
          reports q.turns = trace q.policy q.machine rest ∧
          lastMachine? q.turns = some (settled q.policy q.machine rest) := by
        rw [turns_of_running awake, left]
        exact ih q #[] awake
      unfold draw
      cases h : item.run p.machine with
      | error fault =>
          rw [trace_of_fault h, settled_of_fault h, reports_cons, lastMachine?_cons]
          cases halts : ends p.policy fault with
          | true =>
              rw [turns_of_halted rfl]
              exact ⟨rfl, rfl⟩
          | false =>
              obtain ⟨reported, last⟩ := later { p with
                pending := rest, faults := p.faults + 1, halted := false } rfl rfl
              exact ⟨congrArg _ reported, last⟩
      | ok r =>
          obtain ⟨m, move⟩ := r
          rw [settled_of_ok h]
          cases move with
          | none =>
              rw [trace_of_silence h]
              exact ih { p with machine := m } (said ++ item.notes) running
          | some move =>
              rw [trace_of_move h, reports_cons, lastMachine?_cons]
              obtain ⟨reported, last⟩ := later { p with
                pending := rest, machine := m, moves := p.moves + 1 } running rfl
              exact ⟨congrArg _ reported, last⟩

/-! ## The fold -/

theorem reports_turns {p : Pass} (running : p.halted = false) :
    reports p.turns = trace p.policy p.machine p.pending := by
  rw [turns_of_running running]
  exact (turnsFrom_draw p #[] p.pending running).1

theorem lastMachine?_turns {p : Pass} (running : p.halted = false) :
    lastMachine? p.turns = some (settled p.policy p.machine p.pending) := by
  rw [turns_of_running running]
  exact (turnsFrom_draw p #[] p.pending running).2

theorem outcomes_eq {p : Pass} (running : p.halted = false) :
    p.outcomes = (trace p.policy p.machine p.pending).map Prod.fst := by
  rw [← reports_turns running]
  unfold outcomes reports
  rw [List.map_filterMap]
  congr 1
  funext turn
  cases turn.outcome <;> rfl

theorem finished_machine {p : Pass} (running : p.halted = false) :
    p.finished.machine = settled p.policy p.machine p.pending := by
  have last := lastMachine?_turns running
  unfold lastMachine? at last
  obtain ⟨turn, last, machine⟩ := Option.map_eq_some_iff.mp last
  simp [finished, last, machine]

end Pass

end PrintPath
