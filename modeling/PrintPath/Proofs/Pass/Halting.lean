import PrintPath.Proofs.Pass.Policy
import PrintPath.Proofs.Pass.Request

/-!
# Asking a pass again and again

A pass may be asked as often as one likes, also after its end. What it reports is then
the run asked to its end, cut off after some requests, and its two counts are those of
what it has reported so far. Once a request has brought nothing, a fatal fault, or under
the abort policy any fault, the pass has halted: no later request brings anything, changes
it or draws another item.
-/

namespace PrintPath.Pass

/-! ## Some requests -/

/-- The pass after some requests. -/
def asked (p : Pass) : Nat → Pass
  | 0 => p
  | n + 1 => (p.asked n).next.pass

/-- The answer to a request. The first request has the number zero. -/
def answer (p : Pass) (n : Nat) : Option Outcome :=
  (p.asked n).next.outcome

/-- The outcomes that the first `n` requests have brought. -/
def reported (p : Pass) (n : Nat) : List Outcome :=
  (List.range n).filterMap p.answer

theorem reported_succ (p : Pass) (n : Nat) :
    p.reported (n + 1) = p.reported n ++ (p.answer n).toList := by
  unfold reported
  rw [List.range_succ, List.filterMap_append]
  cases answered : p.answer n <;> simp [answered]

theorem asked_next (p : Pass) (n : Nat) : p.asked (n + 1) = p.next.pass.asked n := by
  induction n with
  | zero => rfl
  | succ n ih =>
      show (p.asked (n + 1)).next.pass = (p.next.pass.asked n).next.pass
      rw [ih]

theorem reported_next (p : Pass) (n : Nat) :
    p.reported (n + 1) = p.next.outcome.toList ++ p.next.pass.reported n := by
  have later (k : Nat) : p.answer (k + 1) = p.next.pass.answer k := by
    unfold answer
    rw [asked_next]
  have first : p.answer 0 = p.next.outcome := rfl
  unfold reported
  rw [List.range_succ_eq_map, List.filterMap_cons, List.filterMap_map, first]
  simp only [Function.comp_def, Nat.succ_eq_add_one, later]
  cases p.next.outcome <;> rfl

/-! ## One request -/

/-- Whether a pass is over with an answer. -/
def isLast (policy : ErrorPolicy) : Option Outcome → Bool
  | none => true
  | some (.ok _) => false
  | some (.error fault) => ends policy fault

theorem isLast_iff {policy : ErrorPolicy} {answer : Option Outcome} :
    isLast policy answer = true ↔
      answer = none ∨ ∃ fault, answer = some (.error fault) ∧
        (fault.isFatal = true ∨ policy = .abort) := by
  cases answer with
  | none => simp [isLast]
  | some outcome => cases outcome <;> simp [isLast, ends]

theorem next_of_halted {p : Pass} (h : p.halted = true) : p.next = ⟨none, p, []⟩ :=
  if_pos h

theorem policy_next (p : Pass) : p.next.pass.policy = p.policy := by
  cases running : p.halted with
  | true => rw [next_of_halted running]
  | false => exact (answers_next running).policy

/-- A request counts what it brings. -/
theorem counts_next (p : Pass) :
    p.next.pass.moves = p.moves + (movesOf p.next.outcome.toList).length ∧
      p.next.pass.faults = p.faults + (faultsOf p.next.outcome.toList).length := by
  cases running : p.halted with
  | true =>
      rw [next_of_halted running]
      exact ⟨rfl, rfl⟩
  | false =>
      have answers := answers_next running
      revert answers
      generalize p.next = turn
      rintro (_ | _ | _) <;> exact ⟨rfl, rfl⟩

/-- A request halts the pass exactly with the last answer. -/
theorem halted_next (p : Pass) : p.next.pass.halted = isLast p.policy p.next.outcome := by
  cases running : p.halted with
  | true =>
      rw [next_of_halted running]
      exact running
  | false =>
      have answers := answers_next running
      revert answers
      generalize p.next = turn
      intro answers
      cases answers with
      | ended silent => rfl
      | failed split silent run => rfl
      | moved split silent run => exact running

/-! ## All requests -/

theorem policy_asked (p : Pass) (n : Nat) : (p.asked n).policy = p.policy := by
  induction n with
  | zero => rfl
  | succ n ih => exact (policy_next _).trans ih

/-- A halted pass stays as it is. -/
theorem asked_of_halted {p : Pass} {k n : Nat} (h : (p.asked k).halted = true) (le : k ≤ n) :
    p.asked n = p.asked k := by
  induction le with
  | refl => rfl
  | step le ih =>
      show (p.asked _).next.pass = p.asked k
      rw [ih, next_of_halted h]

theorem answer_of_halted {p : Pass} {n : Nat} (h : (p.asked n).halted = true) :
    p.answer n = none := by
  rw [answer, next_of_halted h]

theorem counts_asked (p : Pass) (n : Nat) :
    (p.asked n).moves = p.moves + (movesOf (p.reported n)).length ∧
      (p.asked n).faults = p.faults + (faultsOf (p.reported n)).length := by
  induction n with
  | zero => exact ⟨rfl, rfl⟩
  | succ n ih =>
      obtain ⟨moves, faults⟩ := counts_next (p.asked n)
      rw [reported_succ, movesOf, faultsOf, List.filterMap_append, List.filterMap_append,
        List.length_append, List.length_append, ← Nat.add_assoc, ← Nat.add_assoc]
      refine ⟨moves.trans ?_, faults.trans ?_⟩
      · rw [ih.1]
        rfl
      · rw [ih.2]
        rfl

/-- After the last answer nothing comes, and nothing changes any more. -/
theorem asked_of_isLast {p : Pass} {k n : Nat} (last : isLast p.policy (p.answer k) = true)
    (later : k < n) : p.answer n = none ∧ p.asked n = p.asked (k + 1) := by
  have halted : (p.asked (k + 1)).halted = true := by
    show (p.asked k).next.pass.halted = true
    rw [halted_next, policy_asked]
    exact last
  have same := asked_of_halted halted later
  refine ⟨answer_of_halted ?_, same⟩
  rw [same]
  exact halted

/-- An outcome comes no later than the last answer. -/
theorem le_of_isLast {p : Pass} {k n : Nat} {outcome : Outcome}
    (last : isLast p.policy (p.answer k) = true) (h : p.answer n = some outcome) : n ≤ k := by
  refine Nat.le_of_not_lt fun later => ?_
  have nothing := (asked_of_isLast last later).1
  rw [nothing] at h
  cases h

/-- Requests report the run piece by piece. -/
theorem reported_eq_take (p : Pass) (n : Nat) : p.reported n = p.outcomes.take n := by
  induction p using turns_induction generalizing n with
  | ended p quiet =>
      have none (k : Nat) : p.answer k = none := by
        cases k with
        | zero => exact quiet
        | succ k =>
            refine (asked_of_isLast (k := 0) ?_ (Nat.succ_pos k)).1
            rw [answer, asked, quiet]
            rfl
      have nothing : p.reported n = [] :=
        List.filterMap_eq_nil_iff.mpr fun k _ => none k
      have outcomes : p.outcomes = [] := by
        unfold outcomes
        rw [turns_of_ended quiet, List.filterMap_cons, quiet]
        rfl
      rw [nothing, outcomes, List.take_nil]
  | more p outcome first ih =>
      have outcomes : p.outcomes = outcome :: p.next.pass.outcomes := by
        unfold outcomes
        rw [turns_of_outcome first, List.filterMap_cons, first]
      cases n with
      | zero => rfl
      | succ n =>
          rw [reported_next, first, ih, outcomes]
          rfl

/-- **The protocol of requests.** Whatever the items are, and however often a pass over
them is asked: it reports its outcomes in order, and its counts are those of the moves and
the faults reported so far. After an answer that is nothing, a fatal fault, or under the
abort policy any fault, every later answer is nothing, and the pass stays the same, with
its machine, its counts and the items not yet drawn. So a fatal fault is the last outcome
and the only one of its kind, and under the abort policy there is at most one fault. -/
theorem request_protocol (policy : ErrorPolicy) (items : List Item) :
    let p : Pass := { pending := items, policy := policy }
    (∀ n, p.reported n = p.outcomes.take n ∧
      (p.asked n).moves = (movesOf (p.reported n)).length ∧
      (p.asked n).faults = (faultsOf (p.reported n)).length) ∧
    (∀ k, (p.answer k = none ∨ ∃ fault, p.answer k = some (.error fault) ∧
        (fault.isFatal = true ∨ policy = .abort)) →
      ∀ n, k < n → p.answer n = none ∧ p.asked n = p.asked (k + 1)) ∧
    (∀ k fault, p.answer k = some (.error fault) → fault.isFatal = true →
      ∀ n outcome, p.answer n = some outcome → n ≤ k) ∧
    ∀ j k fault fault', p.answer j = some (.error fault) → p.answer k = some (.error fault') →
      fault.isFatal = true ∧ fault'.isFatal = true ∨ policy = .abort → j = k := by
  intro p
  have last {k : Nat} {fault : Fault} (h : p.answer k = some (.error fault))
      (final : fault.isFatal = true ∨ policy = .abort) :
      isLast p.policy (p.answer k) = true :=
    isLast_iff.mpr (Or.inr ⟨fault, h, final⟩)
  refine ⟨fun n => ⟨reported_eq_take p n, ?_⟩, fun k ended n => ?_, ?_, ?_⟩
  · have counts := counts_asked p n
    rwa [Nat.zero_add, Nat.zero_add] at counts
  · exact asked_of_isLast (isLast_iff.mpr ended)
  · exact fun k fault h fatal n outcome => le_of_isLast (last h (Or.inl fatal))
  · intro j k fault fault' hj hk final
    refine Nat.le_antisymm (le_of_isLast (last hk ?_) hj) (le_of_isLast (last hj ?_) hk)
    · exact final.imp_left And.right
    · exact final.imp_left And.left

end PrintPath.Pass
