import PrintPath.Proofs.Pass.Fold

/-!
# The two error policies

Which policy a pass follows only decides where it stops. A fatal fault ends
every run, so there is at most one and it comes last. Under the abort policy
the run ends at its first fault, whatever it is, and up to there it is the run
that goes on. A run without faults does not depend on its policy.
-/

namespace PrintPath

/-! ## Moves and faults among outcomes -/

def movesOf (outcomes : List Outcome) : List Move :=
  outcomes.filterMap fun
    | .ok move => some move
    | .error _ => none

def faultsOf (outcomes : List Outcome) : List Fault :=
  outcomes.filterMap fun
    | .ok _ => none
    | .error fault => some fault

/-- The outcomes up to the first fault, which is the last of them. -/
def upToFault : List Outcome → List Outcome
  | [] => []
  | .ok move :: rest => .ok move :: upToFault rest
  | .error fault :: _ => [.error fault]

@[simp] theorem movesOf_nil : movesOf [] = [] := rfl

@[simp] theorem movesOf_move (move : Move) (rest : List Outcome) :
    movesOf (.ok move :: rest) = move :: movesOf rest := rfl

@[simp] theorem movesOf_fault (fault : Fault) (rest : List Outcome) :
    movesOf (.error fault :: rest) = movesOf rest := rfl

@[simp] theorem faultsOf_nil : faultsOf [] = [] := rfl

@[simp] theorem faultsOf_move (move : Move) (rest : List Outcome) :
    faultsOf (.ok move :: rest) = faultsOf rest := rfl

@[simp] theorem faultsOf_fault (fault : Fault) (rest : List Outcome) :
    faultsOf (.error fault :: rest) = fault :: faultsOf rest := rfl

theorem mem_movesOf {move : Move} {outcomes : List Outcome} :
    move ∈ movesOf outcomes ↔ .ok move ∈ outcomes := by
  induction outcomes with
  | nil => simp
  | cons outcome rest ih => cases outcome <;> simp [ih]

theorem mem_faultsOf {fault : Fault} {outcomes : List Outcome} :
    fault ∈ faultsOf outcomes ↔ .error fault ∈ outcomes := by
  induction outcomes with
  | nil => simp
  | cons outcome rest ih => cases outcome <;> simp [ih]

theorem upToFault_of_faultsOf_eq_nil {outcomes : List Outcome} (h : faultsOf outcomes = []) :
    upToFault outcomes = outcomes := by
  induction outcomes with
  | nil => rfl
  | cons outcome rest ih =>
      cases outcome with
      | ok move => exact congrArg _ (ih h)
      | error fault => cases h

/-- The cut keeps the first fault and no other. -/
theorem faultsOf_upToFault (outcomes : List Outcome) :
    faultsOf (upToFault outcomes) = (faultsOf outcomes).take 1 := by
  induction outcomes with
  | nil => rfl
  | cons outcome rest ih =>
      cases outcome with
      | ok move => exact ih
      | error fault => rfl

theorem Fault.isFatal_iff {fault : Fault} :
    fault.isFatal = true ↔ ∃ n q, fault = .notFinite n q := by
  cases fault <;> simp [isFatal]

namespace Pass

/-! ## Where a run ends -/

/-- The outcomes of running items on a machine. -/
def outcomesOf (policy : ErrorPolicy) (m : Machine) (items : List Item) : List Outcome :=
  (trace policy m items).map Prod.fst

@[simp] theorem ends_abort (fault : Fault) : ends .abort fault = true := by
  simp [ends]

@[simp] theorem ends_bestEffort (fault : Fault) : ends .bestEffort fault = fault.isFatal := by
  simp [ends]

section Items

variable {policy : ErrorPolicy} {m m' : Machine} {item : Item} {rest : List Item}

theorem outcomesOf_of_ends {fault : Fault} (h : item.run m = .error fault)
    (final : ends policy fault = true) : outcomesOf policy m (item :: rest) = [.error fault] := by
  unfold outcomesOf
  rw [trace_of_fault h, if_pos final]
  rfl

theorem outcomesOf_of_not_ends {fault : Fault} (h : item.run m = .error fault)
    (mild : ¬ ends policy fault = true) :
    outcomesOf policy m (item :: rest) = .error fault :: outcomesOf policy m rest := by
  unfold outcomesOf
  rw [trace_of_fault h, if_neg mild]
  rfl

theorem settled_of_ends {fault : Fault} (h : item.run m = .error fault)
    (final : ends policy fault = true) : settled policy m (item :: rest) = m := by
  rw [settled_of_fault h, if_pos final]

theorem settled_of_not_ends {fault : Fault} (h : item.run m = .error fault)
    (mild : ¬ ends policy fault = true) :
    settled policy m (item :: rest) = settled policy m rest := by
  rw [settled_of_fault h, if_neg mild]

theorem outcomesOf_of_move {move : Move} (h : item.run m = .ok (m', some move)) :
    outcomesOf policy m (item :: rest) = .ok move :: outcomesOf policy m' rest := by
  unfold outcomesOf
  rw [trace_of_move h]
  rfl

theorem outcomesOf_of_silence (h : item.run m = .ok (m', none)) :
    outcomesOf policy m (item :: rest) = outcomesOf policy m' rest := by
  unfold outcomesOf
  rw [trace_of_silence h]

end Items

/-- Induction along a run: an item fails, moves, or is silent. -/
theorem run_induction {motive : Machine → List Item → Prop}
    (nil : ∀ m, motive m [])
    (fault : ∀ m item rest fault, item.run m = .error fault → motive m rest →
      motive m (item :: rest))
    (move : ∀ m item rest m' move, item.run m = .ok (m', some move) → motive m' rest →
      motive m (item :: rest))
    (silence : ∀ m item rest m', item.run m = .ok (m', none) → motive m' rest →
      motive m (item :: rest))
    (m : Machine) (items : List Item) : motive m items :=
  trace.induct motive nil fault move silence m items

/-- A fault that ends the run is its last outcome. -/
theorem getLast?_of_ends {policy : ErrorPolicy} {m : Machine} {items : List Item}
    {fault : Fault} (mem : .error fault ∈ outcomesOf policy m items)
    (final : ends policy fault = true) :
    (outcomesOf policy m items).getLast? = some (.error fault) := by
  induction m, items using run_induction with
  | nil m => cases mem
  | fault m item rest fault' h ih =>
      by_cases last : ends policy fault' = true
      · rw [outcomesOf_of_ends h last] at mem ⊢
        rw [List.mem_singleton.mp mem]
        rfl
      · rw [outcomesOf_of_not_ends h last] at mem ⊢
        rcases List.mem_cons.mp mem with same | later
        · cases same
          exact absurd final last
        · rw [List.getLast?_cons, ih later]
          rfl
  | move m item rest m' move h ih =>
      rw [outcomesOf_of_move h] at mem ⊢
      rcases List.mem_cons.mp mem with same | later
      · cases same
      · rw [List.getLast?_cons, ih later]
        rfl
  | silence m item rest m' h ih =>
      rw [outcomesOf_of_silence h] at mem ⊢
      exact ih mem

/-- A run has at most one fault that ends it, so the first one found is any
that there is. -/
theorem find?_ends_iff {policy : ErrorPolicy} {m : Machine} {items : List Item} {fault : Fault} :
    (faultsOf (outcomesOf policy m items)).find? (ends policy) = some fault ↔
      fault ∈ faultsOf (outcomesOf policy m items) ∧ ends policy fault = true := by
  refine ⟨fun found => ⟨List.mem_of_find?_eq_some found, List.find?_some found⟩, ?_⟩
  rintro ⟨mem, final⟩
  cases found : (faultsOf (outcomesOf policy m items)).find? (ends policy) with
  | none => exact absurd final (List.find?_eq_none.mp found fault mem)
  | some other =>
      -- Both are the last outcome.
      have last := getLast?_of_ends (mem_faultsOf.mp mem) final
      have otherLast := getLast?_of_ends
        (mem_faultsOf.mp (List.mem_of_find?_eq_some found)) (List.find?_some found)
      rw [last] at otherLast
      cases otherLast
      rfl

/-! ## The two policies compared -/

theorem outcomesOf_abort (m : Machine) (items : List Item) :
    outcomesOf .abort m items = upToFault (outcomesOf .bestEffort m items) := by
  induction m, items using run_induction with
  | nil m => rfl
  | fault m item rest fault h ih =>
      rw [outcomesOf_of_ends h (ends_abort fault)]
      by_cases fatal : ends .bestEffort fault = true
      · rw [outcomesOf_of_ends h fatal]
        rfl
      · rw [outcomesOf_of_not_ends h fatal]
        rfl
  | move m item rest m' move h ih =>
      rw [outcomesOf_of_move h, outcomesOf_of_move h, ih]
      rfl
  | silence m item rest m' h ih => rw [outcomesOf_of_silence h, outcomesOf_of_silence h, ih]

/-- A run without faults ends with the same machine under either policy. -/
theorem settled_abort {m : Machine} {items : List Item}
    (clean : faultsOf (outcomesOf .bestEffort m items) = []) :
    settled .abort m items = settled .bestEffort m items := by
  induction m, items using run_induction with
  | nil m => rfl
  | fault m item rest fault h ih =>
      by_cases fatal : ends .bestEffort fault = true
      · rw [outcomesOf_of_ends h fatal] at clean
        cases clean
      · rw [outcomesOf_of_not_ends h fatal] at clean
        cases clean
  | move m item rest m' move h ih =>
      rw [outcomesOf_of_move h] at clean
      rw [settled_of_ok h, settled_of_ok h, ih clean]
  | silence m item rest m' h ih =>
      rw [outcomesOf_of_silence h] at clean
      rw [settled_of_ok h, settled_of_ok h, ih clean]

/-! ## Passes over blocks and programs -/

/-- A pass over blocks as a run over items without faults. -/
theorem outcomes_ofBlocks (bs : List Block) :
    (ofBlocks bs).outcomes = outcomesOf .bestEffort .initial (bs.map Item.ofBlock) :=
  outcomes_eq rfl

/-- A pass over a program as a run over its items. -/
theorem outcomes_ofProgram (program : String) (reading : ReadingOptions) :
    (ofProgram program reading).outcomes =
      outcomesOf reading.errorPolicy .initial (Program.items reading.strictness program) :=
  outcomes_eq rfl

theorem finished_ofProgram (program : String) (reading : ReadingOptions) :
    (ofProgram program reading).finished.machine =
      settled reading.errorPolicy .initial (Program.items reading.strictness program) :=
  finished_machine rfl

/-- The aborting pass over a program is the other one up to its first fault. -/
theorem ofProgram_abort (program : String) (s : Strictness) :
    (ofProgram program ⟨s, .abort⟩).outcomes =
      upToFault (ofProgram program ⟨s, .bestEffort⟩).outcomes := by
  rw [outcomes_ofProgram, outcomes_ofProgram]
  exact outcomesOf_abort .initial (Program.items s program)

end Pass

end PrintPath
