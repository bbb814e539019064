import PrintPath.Proofs.Machine.Soundness
import PrintPath.Proofs.Number.Arithmetic
import PrintPath.Proofs.Pass.Prefix

/-!
# What a move hands on

A move is made between two sound machines. Its end points and its feed rate are
theirs, and so they are finite. Its extrusion is a difference that no check has
seen: it is finite as long as the extruder's axis does not go from one end of
the doubles to the other.
-/

namespace PrintPath

/-- What is finite of a move that takes the extruder's axis from `e` to `e'`. -/
structure Move.FiniteBetween (move : Move) (e e' : Float) : Prop where
  before : e.isFinite
  after : e'.isFinite
  start : move.start.isFinite
  finish : move.finish.isFinite
  feedRate : move.feedRate.isFinite
  extrusion_eq : move.extrusion = e' - e
  extrusion_defined : move.extrusion.isNaN = false
  extrusion_iff :
    move.extrusion.isFinite ↔ |Number.value e' - Number.value e| < Number.overflow

namespace Machine

theorem isFinite_position {m : Machine} (h : m.Sound) : m.position.isFinite := by
  simp [Point.isFinite, h.x, h.y, h.z]

theorem finiteBetween_moveBetween {m m' : Machine} (h : m.Sound) (h' : m'.Sound) (rapid : Bool)
    (line : Nat) : (m.moveBetween m' rapid line).FiniteBetween m.extruded m'.extruded := by
  refine ⟨h.extruded, h'.extruded, isFinite_position h, isFinite_position h', h'.feedRate, rfl,
    ?_, ?_⟩
  · exact Number.isNaN_sub h'.extruded h.extruded
  · exact Number.isFinite_sub_iff h'.extruded h.extruded

theorem finiteBetween_of_step {m m' : Machine} {b : Block} {move : Move} (h : m.Sound)
    (step : m.step b = .ok (m', some move)) : move.FiniteBetween m.extruded m'.extruded := by
  have h' := sound_of_step step
  obtain ⟨rapid, _, _, rfl⟩ := move_of_step step
  exact finiteBetween_moveBetween h h' rapid b.line

end Machine

/-! ## Moves of a pass -/

namespace Pass

/-- The blocks among some items. -/
def blocksOf (items : List Item) : List Block :=
  items.filterMap fun item => item.result.toOption

theorem blocksOf_ofBlock (bs : List Block) : blocksOf (bs.map Item.ofBlock) = bs := by
  unfold blocksOf
  rw [List.filterMap_map]
  exact List.filterMap_some

section Items

variable {policy : ErrorPolicy} {m : Machine} {item : Item}

theorem blocksOf_cons_of_ok {b : Block} (h : item.result = .ok b) (rest : List Item) :
    blocksOf (item :: rest) = b :: blocksOf rest := by
  simp [blocksOf, h, Except.toOption]

theorem run_blocksOf_of_ok {r : Machine × Option Move} (h : item.run m = .ok r)
    (rest : List Item) : m.run (blocksOf (item :: rest)) = r.1.run (blocksOf rest) := by
  obtain ⟨b, read, step⟩ := Item.run_eq_ok_iff.mp h
  rw [blocksOf_cons_of_ok read, Machine.run_cons_of_ok step]

theorem run_blocksOf_of_fault {fault : Fault} (h : item.run m = .error fault)
    (rest : List Item) : m.run (blocksOf (item :: rest)) = m.run (blocksOf rest) := by
  rcases Item.run_eq_error_iff.mp h with refused | ⟨b, read, step⟩
  · simp [blocksOf, refused, Except.toOption]
  · rw [blocksOf_cons_of_ok read, Machine.run_cons_of_error step]

/-- As long as nothing ends it, a run is that of the blocks among its items. -/
theorem settled_eq_run {items : List Item} (goesOn : GoesOn policy m items) :
    settled policy m items = m.run (blocksOf items) := by
  induction m, items using run_induction with
  | nil m => rfl
  | fault m item rest fault h ih =>
      have mild := not_ends_of_goesOn goesOn h
      rw [settled_of_not_ends h mild, run_blocksOf_of_fault h,
        ih ((goesOn_cons_of_fault h mild).mp goesOn)]
  | move m item rest m' move h ih =>
      rw [settled_of_ok h, run_blocksOf_of_ok h, ih ((goesOn_cons_of_ok h).mp goesOn)]
  | silence m item rest m' h ih =>
      rw [settled_of_ok h, run_blocksOf_of_ok h, ih ((goesOn_cons_of_ok h).mp goesOn)]

/-- Every move among the outcomes is the step of a block, on the machine that the
blocks before it have left. -/
theorem exists_step_of_move {items : List Item} {move : Move}
    (h : .ok move ∈ outcomesOf policy m items) :
    ∃ pre b m', pre ++ [b] <+: blocksOf items ∧ (m.run pre).step b = .ok (m', some move) := by
  obtain ⟨before, after, split⟩ := List.append_of_mem h
  obtain ⟨pre, item, post, m', rfl, goesOn, _, run, _⟩ := exists_item_of_move split
  obtain ⟨b, read, step⟩ := Item.run_eq_ok_iff.mp run
  rw [settled_eq_run goesOn] at step
  refine ⟨blocksOf pre, b, m', ⟨blocksOf post, ?_⟩, step⟩
  rw [List.append_assoc, blocksOf, blocksOf, blocksOf, List.filterMap_append]
  exact congrArg _ (blocksOf_cons_of_ok read post).symm

end Items

/-- The moves of a program start and finish at finite points. -/
theorem isFinite_of_mem_outcomes {program : String} {reading : ReadingOptions} {move : Move}
    (h : .ok move ∈ (ofProgram program reading).outcomes) :
    move.start.isFinite ∧ move.finish.isFinite := by
  rw [outcomes_ofProgram] at h
  obtain ⟨pre, b, m', -, step⟩ := exists_step_of_move h
  have finite := Machine.finiteBetween_of_step (Machine.sound_run pre) step
  exact ⟨finite.start, finite.finish⟩

/-- **What a move hands on.** Every move between reachable machines, and so every
move among the outcomes of a pass, has finite end points and a finite feed rate.
Its extrusion is the difference of two finite doubles. It is never undefined, and
it is infinite exactly if the difference of their values is beyond the doubles. -/
theorem moves_finite_unless_overflow (bs : List Block) :
    (∀ b m' move, (Machine.initial.run bs).step b = .ok (m', some move) →
      move.FiniteBetween (Machine.initial.run bs).extruded m'.extruded) ∧
    (∀ move, .ok move ∈ (ofBlocks bs).outcomes →
      ∃ pre b m', pre ++ [b] <+: bs ∧
        (Machine.initial.run pre).step b = .ok (m', some move) ∧
        move.FiniteBetween (Machine.initial.run pre).extruded m'.extruded) ∧
    ∀ program reading move, .ok move ∈ (ofProgram program reading).outcomes →
      ∃ pre b m', pre ++ [b] <+: blocksOf (Program.items reading.strictness program) ∧
        (Machine.initial.run pre).step b = .ok (m', some move) ∧
        move.FiniteBetween (Machine.initial.run pre).extruded m'.extruded := by
  -- All three kinds of moves are steps on a machine that some blocks have left.
  have finite {pre b m' move} (step : (Machine.initial.run pre).step b = .ok (m', some move)) :=
    Machine.finiteBetween_of_step (Machine.sound_run pre) step
  refine ⟨fun b m' move => finite, fun move h => ?_, fun program reading move h => ?_⟩
  · rw [outcomes_ofBlocks] at h
    obtain ⟨pre, b, m', here, step⟩ := exists_step_of_move h
    rw [blocksOf_ofBlock] at here
    exact ⟨pre, b, m', here, step, finite step⟩
  · rw [outcomes_ofProgram] at h
    obtain ⟨pre, b, m', here, step⟩ := exists_step_of_move h
    exact ⟨pre, b, m', here, step, finite step⟩

/-- The extruder's axis goes from one end of the doubles to the other, and the move
has pushed out an infinite length. -/
theorem exists_infinite_extrusion :
    ∃ move, (ofProgram "G92 E-1.7e308\nG1 E1.7e308" ⟨.strict, .bestEffort⟩).outcomes =
      [.ok move] ∧ move.extrusion.isFinite = false := by
  rw [outcomes_ofProgram]
  refine ⟨⟨.origin, .origin, true, .ofBits 0x7ff0000000000000, 0, false, 2⟩, ?_, ?_⟩
  · decide +kernel
  · decide +kernel

end Pass

end PrintPath
