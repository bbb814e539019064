import PrintPath.Proofs.Pass.Fold

/-!
# One request

A request goes silently through items that report nothing, up to one that moves or
fails, and leaves everything behind that one for later. If there is none, the pass
has come to its end. The case lemma says all that a request can do.
-/

namespace PrintPath.Pass

/-- Running the items takes the first machine to the second, and nothing is reported
on the way. -/
inductive Silently : Machine → List Item → Machine → Prop
  | nil (m : Machine) : Silently m [] m
  | cons {m m' m'' : Machine} {item : Item} {rest : List Item} :
      item.run m = .ok (m', none) → Silently m' rest m'' → Silently m (item :: rest) m''

/-- What a request makes of a pass that has `items` before it. -/
inductive Answers (p : Pass) (items : List Item) : Turn → Prop
  | ended {m : Machine} {notes : List Note} : Silently p.machine items m →
      Answers p items ⟨none, { p with pending := [], machine := m, halted := true }, notes⟩
  | failed {silent post : List Item} {item : Item} {m : Machine} {fault : Fault}
      {notes : List Note} : items = silent ++ item :: post → Silently p.machine silent m →
      item.run m = .error fault →
      Answers p items ⟨some (.error fault), { p with
        pending := post, machine := m, faults := p.faults + 1, halted := ends p.policy fault },
        notes⟩
  | moved {silent post : List Item} {item : Item} {m m' : Machine} {move : Move}
      {notes : List Note} : items = silent ++ item :: post → Silently p.machine silent m →
      item.run m = .ok (m', some move) →
      Answers p items ⟨some (.ok move), { p with
        pending := post, machine := m', moves := p.moves + 1 }, notes⟩

/-- A silent item changes nothing but the machine. -/
theorem Answers.cons {p : Pass} {item : Item} {rest : List Item} {m : Machine} {turn : Turn}
    (quiet : item.run p.machine = .ok (m, none))
    (h : Answers { p with machine := m } rest turn) : Answers p (item :: rest) turn := by
  cases h with
  | ended silent => exact .ended (.cons quiet silent)
  | failed split silent run =>
      rw [split]
      exact .failed rfl (.cons quiet silent) run
  | moved split silent run =>
      rw [split]
      exact .moved rfl (.cons quiet silent) run

theorem Answers.policy {p : Pass} {items : List Item} {turn : Turn} (h : Answers p items turn) :
    turn.pass.policy = p.policy := by
  cases h <;> rfl

theorem answers_draw (p : Pass) (said : Array Note) (items : List Item) :
    Answers p items (p.draw said items) := by
  induction items generalizing p said with
  | nil => exact .ended (.nil p.machine)
  | cons item rest ih =>
      unfold draw
      cases run : item.run p.machine with
      | error fault => exact .failed rfl (.nil p.machine) run
      | ok r =>
          obtain ⟨m, move⟩ := r
          cases move with
          | none => exact (ih { p with machine := m } (said ++ item.notes)).cons run
          | some move => exact .moved rfl (.nil p.machine) run

theorem answers_next {p : Pass} (running : p.halted = false) : Answers p p.pending p.next := by
  unfold next
  rw [running]
  exact answers_draw p #[] p.pending

/-- Only a pass that runs reports an outcome. -/
theorem running_of_outcome {p : Pass} {outcome : Outcome} (h : p.next.outcome = some outcome) :
    p.halted = false := by
  refine Bool.eq_false_iff.mpr fun halted => ?_
  unfold next at h
  rw [if_pos halted] at h
  cases h

/-! ## The turns after a request -/

theorem turns_of_outcome {p : Pass} {outcome : Outcome} (h : p.next.outcome = some outcome) :
    p.turns = p.next :: p.next.pass.turns := by
  rw [turns_eq, turnsFrom, h]
  rfl

theorem turns_of_ended {p : Pass} (h : p.next.outcome = none) : p.turns = [p.next] := by
  rw [turns_eq, turnsFrom, h]
  rfl

/-- Induction along the requests of a pass. -/
theorem turns_induction {motive : Pass → Prop}
    (ended : ∀ p, p.next.outcome = none → motive p)
    (more : ∀ p outcome, p.next.outcome = some outcome → motive p.next.pass → motive p)
    (p : Pass) : motive p := by
  induction size : p.pending.length using Nat.strongRecOn generalizing p with
  | ind size' ih =>
      subst size
      cases first : p.next.outcome with
      | none => exact ended p first
      | some outcome =>
          have shorter := next_pending_length (Option.isSome_iff_exists.mpr ⟨outcome, first⟩)
          exact more p outcome first (ih _ shorter p.next.pass rfl)

theorem finished_of_ended {p : Pass} (h : p.next.outcome = none) : p.finished = p.next.pass := by
  rw [finished, turns_of_ended h]
  rfl

theorem finished_of_outcome {p : Pass} {outcome : Outcome} (h : p.next.outcome = some outcome) :
    p.finished = p.next.pass.finished := by
  obtain ⟨first, rest, eq⟩ := List.exists_cons_of_ne_nil (turns_ne_nil p.next.pass)
  rw [finished, finished, turns_of_outcome h, eq, List.getLast?_cons_cons,
    List.getLast?_eq_some_getLast (List.cons_ne_nil first rest)]
  rfl

/-- A pass that has halted reports nothing more. -/
theorem outcome_of_halted {p : Pass} {turn : Turn} (h : p.halted = true) (mem : turn ∈ p.turns) :
    turn.outcome = none := by
  rw [turns_of_halted h] at mem
  rw [List.mem_singleton.mp mem]

end PrintPath.Pass
