import PrintPath.Proofs.Machine.Effect
import PrintPath.Proofs.Pass.Prefix

/-!
# The path is connected

A move starts where the one before it has finished, unless blocks in between
redefine the position. Then each axis stands at the last value that it was given
there, in the unit that was in force at that block.
-/

namespace PrintPath

/-! ## Redefined positions -/

/-- The unit after a block. -/
def LengthUnit.after (u : LengthUnit) (b : Block) : LengthUnit :=
  match Command.ofWord? b.command with
  | some (.selectUnit unit) => unit
  | _ => u

/-- The unit after some blocks: that of the last one to select any, and
millimetres before. -/
def unitAfter (bs : List Block) : LengthUnit :=
  bs.foldl LengthUnit.after .millimeters

/-- The millimetres that a block puts an axis at without a move. -/
def placed? (u : LengthUnit) (a : Axis) (b : Block) : Option Float :=
  match Command.ofWord? b.command with
  | some .setPosition => (b.axis a).map u.inMillimeters
  | _ => none

/-- All values that some blocks put an axis at without a move, from the first to
the last. -/
def placements (u : LengthUnit) (a : Axis) : List Block → List Float
  | [] => []
  | b :: bs => (placed? u a b).toList ++ placements (u.after b) a bs

/-- Where a point is after some blocks that make no move. -/
def Point.redefined (p : Point) (u : LengthUnit) (bs : List Block) : Point :=
  ⟨(placements u .x bs).getLast?.getD p.x, (placements u .y bs).getLast?.getD p.y,
    (placements u .z bs).getLast?.getD p.z⟩

theorem placements_eq_nil {bs : List Block} {a : Axis}
    (h : ∀ b ∈ bs, b.command = "G92" → b.axis a = none) (u : LengthUnit) :
    placements u a bs = [] := by
  induction bs generalizing u with
  | nil => rfl
  | cons b bs ih =>
      rw [List.forall_mem_cons] at h
      have first : placed? u a b = none := by
        unfold placed?
        split
        · next known => rw [h.1 (Command.word_of_ofWord? known).symm]; rfl
        · rfl
      rw [placements, first, ih h.2]
      rfl

namespace Machine

theorem unit_of_step {m : Machine} {b : Block} {r : Machine × Option Move}
    (h : m.step b = .ok r) : r.1.unit = m.unit.after b := by
  obtain ⟨c, known, rfl, _⟩ := step_eq_ok_iff.mp h
  have unit : (m.apply b c).1.unit = (modesAfter m.modes c).unit :=
    congrArg Modes.unit (modes_apply m b c)
  rw [unit, LengthUnit.after, known]
  cases c <;> rfl

/-- A block that makes no move leaves an axis where it is, unless it puts it
elsewhere. -/
theorem axis_of_silent_step {m m' : Machine} {b : Block} (h : m.step b = .ok (m', none))
    (a : Axis) : m'.axis a = (placed? m.unit a b).getD (m.axis a) := by
  obtain ⟨c, known, result, _⟩ := step_eq_ok_iff.mp h
  have machine : m' = (m.apply b c).1 := congrArg Prod.fst result
  rw [machine, placed?, known]
  cases c with
  | move rapid => cases result
  | setPosition =>
      show (m.afterPlacing b).axis a = _
      rw [axis_afterPlacing, placedAt]
      cases b.axis a <;> rfl
  | selectUnit unit => exact (numbers_apply m b rfl).1 a
  | selectPositioning mode => exact (numbers_apply m b rfl).1 a
  | selectExtrusion mode => exact (numbers_apply m b rfl).1 a
  | releaseMotors => exact (numbers_apply m b rfl).1 a

/-- A block that is refused for its command alone selects no unit and puts no
axis anywhere. -/
theorem ignored_of_mild_fault {m : Machine} {b : Block} {fault : Fault}
    (h : m.step b = .error fault) (mild : fault.isFatal = false) :
    (∀ u : LengthUnit, u.after b = u) ∧ ∀ u a, placed? u a b = none := by
  rcases step_eq_error_iff.mp h with ⟨unknown, _⟩ | ⟨_, _, _, _, rfl⟩
  · exact ⟨fun u => by rw [LengthUnit.after, unknown], fun u a => by rw [placed?, unknown]⟩
  · cases mild

theorem position_eq {m : Machine} {p : Point} (x : m.axis .x = p.x) (y : m.axis .y = p.y)
    (z : m.axis .z = p.z) : m.position = p := by
  obtain ⟨_, _, _⟩ := p
  obtain ⟨⟨_, _, _⟩, _⟩ := m
  simp_all [axis]

end Machine

/-! ## Passes over blocks -/

namespace Pass

section Blocks

variable {m : Machine} {bs : List Block}

theorem unit_settled (goesOn : GoesOn .bestEffort m (bs.map Item.ofBlock)) :
    (settled .bestEffort m (bs.map Item.ofBlock)).unit = bs.foldl LengthUnit.after m.unit := by
  induction bs generalizing m with
  | nil => rfl
  | cons b bs ih =>
      rw [List.map_cons] at goesOn ⊢
      rw [List.foldl_cons]
      cases step : m.step b with
      | error fault =>
          have run : (Item.ofBlock b).run m = .error fault := step
          have mild := not_ends_of_goesOn goesOn run
          rw [settled_of_not_ends run mild, ih ((goesOn_cons_of_fault run mild).mp goesOn),
            (Machine.ignored_of_mild_fault step (by simpa using mild)).1]
      | ok r =>
          have run : (Item.ofBlock b).run m = .ok (r.1, r.2) := step
          rw [settled_of_ok run, ih ((goesOn_cons_of_ok run).mp goesOn),
            Machine.unit_of_step step]

/-- After blocks that make no move, an axis stands at the last value that it was
put at. -/
theorem axis_settled (goesOn : GoesOn .bestEffort m (bs.map Item.ofBlock))
    (still : movesOf (outcomesOf .bestEffort m (bs.map Item.ofBlock)) = []) (a : Axis) :
    (settled .bestEffort m (bs.map Item.ofBlock)).axis a =
      (placements m.unit a bs).getLast?.getD (m.axis a) := by
  induction bs generalizing m with
  | nil => rfl
  | cons b bs ih =>
      rw [List.map_cons] at goesOn still ⊢
      rw [placements]
      cases step : m.step b with
      | error fault =>
          have run : (Item.ofBlock b).run m = .error fault := step
          have mild := not_ends_of_goesOn goesOn run
          obtain ⟨unit, unplaced⟩ := Machine.ignored_of_mild_fault step (by simpa using mild)
          rw [outcomesOf_of_not_ends run mild, movesOf_fault] at still
          rw [settled_of_not_ends run mild, ih ((goesOn_cons_of_fault run mild).mp goesOn) still,
            unit, unplaced]
          rfl
      | ok r =>
          obtain ⟨m', move⟩ := r
          have run : (Item.ofBlock b).run m = .ok (m', move) := step
          cases move with
          | some move =>
              rw [outcomesOf_of_move run] at still
              cases still
          | none =>
              rw [outcomesOf_of_silence run] at still
              rw [settled_of_ok run, ih ((goesOn_cons_of_ok run).mp goesOn) still,
                Machine.unit_of_step step, Machine.axis_of_silent_step step,
                List.getLast?_append]
              cases placed? m.unit a b <;> simp

theorem position_settled (goesOn : GoesOn .bestEffort m (bs.map Item.ofBlock))
    (still : movesOf (outcomesOf .bestEffort m (bs.map Item.ofBlock)) = []) :
    (settled .bestEffort m (bs.map Item.ofBlock)).position = m.position.redefined m.unit bs :=
  Machine.position_eq (axis_settled goesOn still .x) (axis_settled goesOn still .y)
    (axis_settled goesOn still .z)

/-- Where a move was made, among blocks. -/
theorem exists_block_of_move {before after : List Outcome} {move : Move}
    (h : outcomesOf .bestEffort m (bs.map Item.ofBlock) = before ++ .ok move :: after) :
    ∃ pre b post m', bs = pre ++ b :: post ∧ GoesOn .bestEffort m (pre.map Item.ofBlock) ∧
      outcomesOf .bestEffort m (pre.map Item.ofBlock) = before ∧
      (settled .bestEffort m (pre.map Item.ofBlock)).step b = .ok (m', some move) ∧
      outcomesOf .bestEffort m' (post.map Item.ofBlock) = after := by
  obtain ⟨pre', item, post', m', split, goesOn, first, step, later⟩ := exists_item_of_move h
  obtain ⟨pre, others, rfl, rfl, tail⟩ := List.map_eq_append_iff.mp split
  obtain ⟨b, post, rfl, rfl, rfl⟩ := List.map_eq_cons_iff.mp tail
  exact ⟨pre, b, post, m', rfl, goesOn, first, step, later⟩

/-- The outcomes of blocks up to a move and beyond it. -/
theorem outcomesOf_through_move {pre post : List Block} {b : Block} {m' : Machine} {move : Move}
    (goesOn : GoesOn .bestEffort m (pre.map Item.ofBlock))
    (step : (settled .bestEffort m (pre.map Item.ofBlock)).step b = .ok (m', some move)) :
    outcomesOf .bestEffort m ((pre ++ b :: post).map Item.ofBlock) =
      outcomesOf .bestEffort m (pre.map Item.ofBlock) ++
        .ok move :: outcomesOf .bestEffort m' (post.map Item.ofBlock) := by
  have run : (Item.ofBlock b).run (settled .bestEffort m (pre.map Item.ofBlock)) =
      .ok (m', some move) := step
  rw [List.map_append, List.map_cons, (run_append goesOn _).1, outcomesOf_of_move run]

end Blocks

/-- **The path is connected.** The first move of a pass starts at the origin and
every other one where the move before it has finished, each axis at the last
value that the blocks between the two have put it at. `c` is the block of the
earlier move, `d` that of the later one, and `mid` is what the pass has gone
through between them. -/
theorem connected_path (bs : List Block) :
    (∀ between move after, (ofBlocks bs).outcomes = between ++ .ok move :: after →
      movesOf between = [] →
      ∃ mid d post, bs = mid ++ d :: post ∧
        (ofBlocks mid).outcomes = between ∧
        (ofBlocks (mid ++ [d])).outcomes = between ++ [.ok move] ∧
        move.start = Point.origin.redefined .millimeters mid) ∧
    ∀ before earlier between later after,
      (ofBlocks bs).outcomes = before ++ .ok earlier :: (between ++ .ok later :: after) →
      movesOf between = [] →
      ∃ pre c mid d post, bs = pre ++ c :: (mid ++ d :: post) ∧
        (ofBlocks pre).outcomes = before ∧
        (ofBlocks (pre ++ [c])).outcomes = before ++ [.ok earlier] ∧
        (ofBlocks (pre ++ c :: mid)).outcomes = before ++ .ok earlier :: between ∧
        (ofBlocks (pre ++ c :: (mid ++ [d]))).outcomes =
          before ++ .ok earlier :: (between ++ [.ok later]) ∧
        later.start = earlier.finish.redefined (unitAfter (pre ++ [c])) mid ∧
        ((∀ b ∈ mid, b.command = "G92" →
            b.axis .x = none ∧ b.axis .y = none ∧ b.axis .z = none) →
          later.start = earlier.finish) := by
  constructor
  · intro between move after h still
    rw [outcomes_ofBlocks] at h
    obtain ⟨mid, d, post, m', rfl, goesOn, first, step, _⟩ := exists_block_of_move h
    refine ⟨mid, d, post, rfl, ?_, ?_, ?_⟩
    · rw [outcomes_ofBlocks, first]
    · rw [outcomes_ofBlocks, outcomesOf_through_move goesOn step, first]
      rfl
    · obtain ⟨rapid, _, _, rfl⟩ := Machine.move_of_step step
      exact position_settled goesOn (first ▸ still)
  · intro before earlier between later after h still
    rw [outcomes_ofBlocks] at h
    obtain ⟨pre, c, post', m, rfl, goesOn, first, step, rest⟩ := exists_block_of_move h
    obtain ⟨mid, d, post, m', rfl, goesOn', second, step', _⟩ := exists_block_of_move rest
    have unit : m.unit = unitAfter (pre ++ [c]) := by
      rw [Machine.unit_of_step step, unit_settled goesOn, unitAfter, List.foldl_append]
      rfl
    have start : later.start = earlier.finish.redefined (unitAfter (pre ++ [c])) mid := by
      obtain ⟨_, _, _, rfl⟩ := Machine.move_of_step step
      obtain ⟨_, _, _, rfl⟩ := Machine.move_of_step step'
      rw [← unit]
      exact position_settled goesOn' (second ▸ still)
    refine ⟨pre, c, mid, d, post, rfl, ?_, ?_, ?_, ?_, start, fun unplaced => ?_⟩
    · rw [outcomes_ofBlocks, first]
    · rw [outcomes_ofBlocks, outcomesOf_through_move goesOn step, first]
      rfl
    · rw [outcomes_ofBlocks, outcomesOf_through_move goesOn step, first, second]
    · rw [outcomes_ofBlocks, outcomesOf_through_move goesOn step, first,
        outcomesOf_through_move goesOn' step', second]
      rfl
    · rw [start, Point.redefined, placements_eq_nil fun b mem g92 => (unplaced b mem g92).1,
        placements_eq_nil fun b mem g92 => (unplaced b mem g92).2.1,
        placements_eq_nil fun b mem g92 => (unplaced b mem g92).2.2]
      rfl

end Pass

end PrintPath
