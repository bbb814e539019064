import PrintPath.Proofs.Pass.Policy

/-!
# Runs in parts

A run over items that are put one behind the other is two runs, the second on
the machine that the first has left, as long as the first is not ended by a
fault. Every move that a run reports tells where it was made: on one item, with
the earlier outcomes due to the items before it and the later ones to those
behind.
-/

namespace PrintPath.Pass

/-- None of the faults on some items ends the run. -/
def GoesOn (policy : ErrorPolicy) (m : Machine) (items : List Item) : Prop :=
  ∀ fault ∈ faultsOf (outcomesOf policy m items), ends policy fault = false

instance (policy : ErrorPolicy) (m : Machine) (items : List Item) :
    Decidable (GoesOn policy m items) :=
  inferInstanceAs (Decidable (∀ _ ∈ _, _))

section Items

variable {policy : ErrorPolicy} {m m' : Machine} {item : Item} {rest : List Item}

theorem goesOn_nil : GoesOn policy m [] :=
  fun _ mem => absurd mem List.not_mem_nil

theorem goesOn_cons_of_fault {fault : Fault} (h : item.run m = .error fault)
    (mild : ¬ ends policy fault = true) :
    GoesOn policy m (item :: rest) ↔ GoesOn policy m rest := by
  unfold GoesOn
  rw [outcomesOf_of_not_ends h mild, faultsOf_fault, List.forall_mem_cons,
    and_iff_right (Bool.eq_false_iff.mpr mild)]

theorem goesOn_cons_of_ok {move : Option Move} (h : item.run m = .ok (m', move)) :
    GoesOn policy m (item :: rest) ↔ GoesOn policy m' rest := by
  unfold GoesOn
  cases move with
  | none => rw [outcomesOf_of_silence h]
  | some move => rw [outcomesOf_of_move h, faultsOf_move]

theorem not_ends_of_goesOn {fault : Fault} (goesOn : GoesOn policy m (item :: rest))
    (h : item.run m = .error fault) : ¬ ends policy fault = true := by
  intro final
  have mild : ends policy fault = false := by
    refine goesOn fault ?_
    rw [outcomesOf_of_ends h final]
    exact List.mem_cons_self
  rw [final] at mild
  cases mild

end Items

/-- The items behind others are run on the machine that those have left, unless a
fault has ended the run. -/
theorem trace_append (policy : ErrorPolicy) (m : Machine) (is js : List Item) :
    trace policy m (is ++ js) = trace policy m is ++
        (if GoesOn policy m is then trace policy (settled policy m is) js else []) ∧
      settled policy m (is ++ js) =
        if GoesOn policy m is then settled policy (settled policy m is) js
        else settled policy m is := by
  induction m, is using run_induction with
  | nil m =>
      rw [if_pos goesOn_nil, if_pos goesOn_nil]
      exact ⟨rfl, rfl⟩
  | fault m item rest fault h ih =>
      rw [List.cons_append, trace_of_fault h, trace_of_fault h, settled_of_fault h,
        settled_of_fault h]
      by_cases final : ends policy fault = true
      · have stops : ¬ GoesOn policy m (item :: rest) := fun goesOn =>
          not_ends_of_goesOn goesOn h final
        simp only [if_pos final, if_neg stops, List.append_nil, and_self]
      · simp only [if_neg final, goesOn_cons_of_fault h final, List.cons_append, ih, and_self]
  | move m item rest m' move h ih =>
      rw [List.cons_append, trace_of_move h, trace_of_move h, settled_of_ok h, settled_of_ok h]
      simp only [goesOn_cons_of_ok h, List.cons_append, ih, and_self]
  | silence m item rest m' h ih =>
      rw [List.cons_append, trace_of_silence h, trace_of_silence h, settled_of_ok h,
        settled_of_ok h]
      simp only [goesOn_cons_of_ok h, ih, and_self]

theorem run_append {policy : ErrorPolicy} {m : Machine} {is : List Item}
    (goesOn : GoesOn policy m is) (js : List Item) :
    outcomesOf policy m (is ++ js) =
        outcomesOf policy m is ++ outcomesOf policy (settled policy m is) js ∧
      settled policy m (is ++ js) = settled policy (settled policy m is) js := by
  obtain ⟨reported, machine⟩ := trace_append policy m is js
  rw [if_pos goesOn] at reported machine
  refine ⟨?_, machine⟩
  unfold outcomesOf
  rw [reported, List.map_append]

/-- Where a move was made. -/
theorem exists_item_of_move {policy : ErrorPolicy} {m : Machine} {items : List Item}
    {before after : List Outcome} {move : Move}
    (h : outcomesOf policy m items = before ++ .ok move :: after) :
    ∃ pre item post m', items = pre ++ item :: post ∧ GoesOn policy m pre ∧
      outcomesOf policy m pre = before ∧
      item.run (settled policy m pre) = .ok (m', some move) ∧
      outcomesOf policy m' post = after := by
  induction m, items using run_induction generalizing before with
  | nil m => exact absurd h (by simp [outcomesOf, trace])
  | fault m item rest fault run ih =>
      by_cases final : ends policy fault = true
      · rw [outcomesOf_of_ends run final] at h
        cases before <;> simp at h
      · rw [outcomesOf_of_not_ends run final] at h
        cases before with
        | nil => cases h
        | cons o before =>
            obtain ⟨rfl, tail⟩ := List.cons.inj h
            obtain ⟨pre, item', post, m', rfl, goesOn, first, step, later⟩ := ih tail
            refine ⟨item :: pre, item', post, m', rfl,
              (goesOn_cons_of_fault run final).mpr goesOn, ?_, ?_, later⟩
            · rw [outcomesOf_of_not_ends run final, first]
            · rwa [settled_of_not_ends run final]
  | move m item rest m₁ move₁ run ih =>
      rw [outcomesOf_of_move run] at h
      cases before with
      | nil =>
          obtain ⟨same, rest_eq⟩ := List.cons.inj h
          cases same
          exact ⟨[], item, rest, m₁, rfl, fun fault mem => absurd mem (by simp [outcomesOf, trace]),
            rfl, run, rest_eq⟩
      | cons o before =>
          obtain ⟨rfl, tail⟩ := List.cons.inj h
          obtain ⟨pre, item', post, m', rfl, goesOn, first, step, later⟩ := ih tail
          refine ⟨item :: pre, item', post, m', rfl, (goesOn_cons_of_ok run).mpr goesOn, ?_, ?_,
            later⟩
          · rw [outcomesOf_of_move run, first]
          · rwa [settled_of_ok run]
  | silence m item rest m₁ run ih =>
      rw [outcomesOf_of_silence run] at h
      obtain ⟨pre, item', post, m', rfl, goesOn, first, step, later⟩ := ih h
      refine ⟨item :: pre, item', post, m', rfl, (goesOn_cons_of_ok run).mpr goesOn, ?_, ?_, later⟩
      · rw [outcomesOf_of_silence run, first]
      · rwa [settled_of_ok run]

end PrintPath.Pass
