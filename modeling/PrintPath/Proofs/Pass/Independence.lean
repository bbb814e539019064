import Mathlib.Data.List.Forall2
import Mathlib.Data.Option.Basic
import PrintPath.Proofs.Pass.Handoff

/-!
# Axes do not disturb each other

Watch some axes of a machine and let two programs say the same of those, and
anything at all of the others. As long as neither program is ended, the two runs
agree on every mode and on the watched axes after each block, and so they report
the same faults, and moves that look the same to an observer of those axes.
-/

namespace PrintPath

/-! ## Agreement on some axes -/

/-- Two blocks on one line with the same command and the same arguments for the
watched axes. -/
structure Block.Agrees (watched : List Axis) (b c : Block) : Prop where
  command : b.command = c.command
  line : b.line = c.line
  axis : ∀ a ∈ watched, b.axis a = c.axis a

instance (watched : List Axis) : DecidableRel (Block.Agrees watched) := fun b c =>
  decidable_of_iff (b.command = c.command ∧ b.line = c.line ∧ ∀ a ∈ watched, b.axis a = c.axis a)
    ⟨fun ⟨command, line, axis⟩ => ⟨command, line, axis⟩, fun h => ⟨h.command, h.line, h.axis⟩⟩

/-- Two outcomes that are one fault, or two related moves. -/
inductive Alike (related : Move → Move → Prop) : Outcome → Outcome → Prop
  | fault (fault : Fault) : Alike related (.error fault) (.error fault)
  | move {move move' : Move} : related move move' → Alike related (.ok move) (.ok move')

theorem Alike.imp {related related' : Move → Move → Prop}
    (weaker : ∀ move move', related move move' → related' move move') {o o' : Outcome}
    (h : Alike related o o') : Alike related' o o' := by
  cases h with
  | fault fault => exact .fault fault
  | move both => exact .move (weaker _ _ both)

namespace Machine

/-- Two machines in the same modes with the same values on the watched axes. -/
structure Agrees (watched : List Axis) (m n : Machine) : Prop where
  modes : m.modes = n.modes
  axis : ∀ a ∈ watched, m.axis a = n.axis a

theorem Agrees.refl (watched : List Axis) (m : Machine) : m.Agrees watched m :=
  ⟨rfl, fun _ _ => rfl⟩

/-- Two moves on one line, each between machines that agree with those of the
other. -/
inductive MovesAlike (watched : List Axis) : Move → Move → Prop
  | between {m m' n n' : Machine} (before : m.Agrees watched n) (after : m'.Agrees watched n')
      (rapid : Bool) (line : Nat) :
      MovesAlike watched (m.moveBetween m' rapid line) (n.moveBetween n' rapid line)

section Step

variable {watched : List Axis} {m n : Machine} {b c : Block}

theorem Agrees.afterMove (h : m.Agrees watched n) (same : b.Agrees watched c) :
    (m.afterMove b).Agrees watched (n.afterMove c) where
  modes := by rw [modes_afterMove, modes_afterMove, h.modes]
  axis a mem := by
    rw [axis_afterMove, axis_afterMove, movedTo, movedTo, same.axis a mem, h.modes, h.axis a mem]

theorem Agrees.afterPlacing (h : m.Agrees watched n) (same : b.Agrees watched c) :
    (m.afterPlacing b).Agrees watched (n.afterPlacing c) where
  modes := by rw [modes_afterPlacing, modes_afterPlacing, h.modes]
  axis a mem := by
    rw [axis_afterPlacing, axis_afterPlacing, placedAt, placedAt, same.axis a mem, h.modes,
      h.axis a mem]

/-- Commands that read no numbers keep the agreement whatever their blocks say. -/
theorem Agrees.apply_of_not_isGeometric (h : m.Agrees watched n) (b c : Block) {k : Command}
    (silent : k.isGeometric = false) : (m.apply b k).1.Agrees watched (n.apply c k).1 where
  modes := by rw [modes_apply, modes_apply, h.modes]
  axis a mem := by
    rw [(numbers_apply m b silent).1, (numbers_apply n c silent).1, h.axis a mem]

theorem Agrees.apply (h : m.Agrees watched n) (same : b.Agrees watched c) (k : Command) :
    (m.apply b k).1.Agrees watched (n.apply c k).1 ∧
      Option.Rel (MovesAlike watched) (m.apply b k).2 (n.apply c k).2 := by
  cases k with
  | move rapid =>
      have after := h.afterMove same
      refine ⟨after, .some ?_⟩
      rw [same.line]
      exact .between h after rapid c.line
  | setPosition => exact ⟨h.afterPlacing same, .none⟩
  | selectUnit unit => exact ⟨h.apply_of_not_isGeometric b c rfl, .none⟩
  | selectPositioning mode => exact ⟨h.apply_of_not_isGeometric b c rfl, .none⟩
  | selectExtrusion mode => exact ⟨h.apply_of_not_isGeometric b c rfl, .none⟩
  | releaseMotors => exact ⟨h.apply_of_not_isGeometric b c rfl, .none⟩

/-- Two steps that agree on the watched axes fail alike or succeed alike, unless
the numbers of one of them, watched or not, are beyond what a machine can hold. -/
theorem Agrees.step (h : m.Agrees watched n) (same : b.Agrees watched c) :
    (∃ fault, m.step b = .error fault ∧ n.step c = .error fault) ∨
    (∃ r s, m.step b = .ok r ∧ n.step c = .ok s ∧ r.1.Agrees watched s.1 ∧
      Option.Rel (MovesAlike watched) r.2 s.2) ∨
    ∃ fault, fault.isFatal = true ∧ (m.step b = .error fault ∨ n.step c = .error fault) := by
  cases known : Command.ofWord? b.command with
  | none =>
      left
      refine ⟨_, step_unknown m known, ?_⟩
      rw [same.command, same.line]
      exact step_unknown n (same.command ▸ known)
  | some k =>
      right
      have step := step_known m known
      have step' := step_known n (b := c) (c := k) (same.command ▸ known)
      cases unsound : (m.apply b k).1.unsound? with
      | some q =>
          rw [unsound] at step
          exact Or.inr ⟨_, rfl, Or.inl step⟩
      | none =>
          cases unsound' : (n.apply c k).1.unsound? with
          | some q =>
              rw [unsound'] at step'
              exact Or.inr ⟨_, rfl, Or.inr step'⟩
          | none =>
              rw [unsound] at step
              rw [unsound'] at step'
              obtain ⟨machines, moves⟩ := h.apply same k
              exact Or.inl ⟨_, _, step, step', machines, moves⟩

end Step

end Machine

/-! ## Agreement along two runs -/

namespace Pass

open Machine (Agrees MovesAlike)

/-- Two runs that are not ended keep the agreement and report alike. The fault that
would end a run is the only way in which an axis that is not watched could show. -/
theorem outcomesOf_alike {watched : List Axis} {m n : Machine} {bs cs : List Block}
    (start : m.Agrees watched n) (blocks : List.Forall₂ (Block.Agrees watched) bs cs)
    (goesOn : GoesOn .bestEffort m (bs.map Item.ofBlock))
    (goesOn' : GoesOn .bestEffort n (cs.map Item.ofBlock)) :
    List.Forall₂ (Alike (MovesAlike watched)) (outcomesOf .bestEffort m (bs.map Item.ofBlock))
        (outcomesOf .bestEffort n (cs.map Item.ofBlock)) ∧
      (settled .bestEffort m (bs.map Item.ofBlock)).Agrees watched
        (settled .bestEffort n (cs.map Item.ofBlock)) := by
  induction blocks generalizing m n with
  | nil => exact ⟨.nil, start⟩
  | @cons b c bs cs first rest ih =>
      rw [List.map_cons] at goesOn goesOn' ⊢
      rw [List.map_cons]
      rcases start.step first with ⟨fault, step, step'⟩ | ⟨r, s, step, step', machines, moves⟩ |
        ⟨fault, fatal, step⟩
      · have run : (Item.ofBlock b).run m = .error fault := step
        have run' : (Item.ofBlock c).run n = .error fault := step'
        have mild := not_ends_of_goesOn goesOn run
        obtain ⟨outcomes, machines⟩ := ih start ((goesOn_cons_of_fault run mild).mp goesOn)
          ((goesOn_cons_of_fault run' mild).mp goesOn')
        rw [outcomesOf_of_not_ends run mild, outcomesOf_of_not_ends run' mild,
          settled_of_not_ends run mild, settled_of_not_ends run' mild]
        exact ⟨.cons (.fault fault) outcomes, machines⟩
      · obtain ⟨m', move⟩ := r
        obtain ⟨n', move'⟩ := s
        have run : (Item.ofBlock b).run m = .ok (m', move) := step
        have run' : (Item.ofBlock c).run n = .ok (n', move') := step'
        obtain ⟨outcomes, settles⟩ := ih machines ((goesOn_cons_of_ok run).mp goesOn)
          ((goesOn_cons_of_ok run').mp goesOn')
        rw [settled_of_ok run, settled_of_ok run']
        refine ⟨?_, settles⟩
        cases moves with
        | none =>
            rw [outcomesOf_of_silence run, outcomesOf_of_silence run']
            exact outcomes
        | some alike =>
            rw [outcomesOf_of_move run, outcomesOf_of_move run']
            exact .cons (.move alike) outcomes
      · -- A fatal fault in either run contradicts that both go on.
        exfalso
        rcases step with step | step
        · have run : (Item.ofBlock b).run m = .error fault := step
          exact not_ends_of_goesOn goesOn run (by simp [fatal])
        · have run : (Item.ofBlock c).run n = .error fault := step
          exact not_ends_of_goesOn goesOn' run (by simp [fatal])

end Pass

/-! ## What an observer of some axes sees -/

namespace Machine

variable {m n : Machine}

theorem Agrees.position (h : m.Agrees [.x, .y, .z] n) : m.position = n.position := by
  have x : m.position.x = n.position.x := h.axis .x (by decide)
  have y : m.position.y = n.position.y := h.axis .y (by decide)
  have z : m.position.z = n.position.z := h.axis .z (by decide)
  obtain ⟨⟨_, _, _⟩, _⟩ := m
  obtain ⟨⟨_, _, _⟩, _⟩ := n
  simp_all

theorem Agrees.extruded (h : m.Agrees [.e] n) : m.extruded = n.extruded :=
  h.axis .e (by decide)

/-- An observer of the three axes in space sees where a move goes. -/
theorem MovesAlike.path {move move' : Move} (h : MovesAlike [.x, .y, .z] move move') :
    move.start = move'.start ∧ move.finish = move'.finish ∧ move.rapid = move'.rapid ∧
      move.line = move'.line := by
  obtain ⟨before, after, rapid, line⟩ := h
  exact ⟨before.position, after.position, rfl, rfl⟩

/-- An observer of the extruder sees what a move extrudes. -/
theorem MovesAlike.filament {move move' : Move} (h : MovesAlike [.e] move move') :
    move.extruding = move'.extruding ∧ move.extrusion = move'.extrusion ∧
      move.rapid = move'.rapid ∧ move.line = move'.line := by
  obtain ⟨before, after, rapid, line⟩ := h
  simp only [moveBetween, before.extruded, after.extruded, and_self]

end Machine

namespace Pass

open Machine (Agrees)

/-- **Axes are independent.** Take two programs that are not ended by a fault, with
the same commands on the same lines. If their blocks say the same of the axes in
space, the two passes report the same faults and moves with the same path, whatever
the blocks say of the extruder and the feed rate. If they say the same of the
extruder, the moves extrude the same, and the extruder's axis ends at the same
value. -/
theorem axes_independent {bs cs : List Block}
    (mild : ∀ fault ∈ faultsOf (ofBlocks bs).outcomes, fault.isFatal = false)
    (mild' : ∀ fault ∈ faultsOf (ofBlocks cs).outcomes, fault.isFatal = false) :
    (List.Forall₂ (Block.Agrees [.x, .y, .z]) bs cs →
      List.Forall₂
        (Alike fun move move' => move.start = move'.start ∧ move.finish = move'.finish ∧
          move.rapid = move'.rapid ∧ move.line = move'.line)
        (ofBlocks bs).outcomes (ofBlocks cs).outcomes) ∧
    (List.Forall₂ (Block.Agrees [.e]) bs cs →
      List.Forall₂
        (Alike fun move move' => move.extruding = move'.extruding ∧
          move.extrusion = move'.extrusion ∧ move.rapid = move'.rapid ∧ move.line = move'.line)
        (ofBlocks bs).outcomes (ofBlocks cs).outcomes ∧
      (ofBlocks bs).finished.machine.extruded = (ofBlocks cs).finished.machine.extruded) := by
  rw [outcomes_ofBlocks] at mild mild' ⊢
  rw [outcomes_ofBlocks]
  have goesOn : GoesOn .bestEffort .initial (bs.map Item.ofBlock) := fun fault mem => by
    rw [ends_bestEffort, mild fault mem]
  have goesOn' : GoesOn .bestEffort .initial (cs.map Item.ofBlock) := fun fault mem => by
    rw [ends_bestEffort, mild' fault mem]
  constructor
  · intro blocks
    obtain ⟨outcomes, _⟩ := outcomesOf_alike (.refl _ .initial) blocks goesOn goesOn'
    exact outcomes.imp fun _ _ => Alike.imp fun _ _ => Machine.MovesAlike.path
  · intro blocks
    obtain ⟨outcomes, machines⟩ := outcomesOf_alike (.refl _ .initial) blocks goesOn goesOn'
    refine ⟨outcomes.imp fun _ _ => Alike.imp fun _ _ => Machine.MovesAlike.filament, ?_⟩
    rw [finished_machine rfl, finished_machine rfl]
    exact machines.extruded

/-- A relative program with an unknown command and a redefined position, the same
path without filament, and the same filament on another path. -/
theorem axes_independent_of_variants :
    let bs := blocksOf (Program.items .strict "G91\nG1 X1 Y2 E3\nM7\nG92 X5\nG0 Z1 E-1")
    let dry := blocksOf (Program.items .strict "G91\nG1 X1 Y2 F60\nM7 E1\nG92 X5 E4\nG0 Z1")
    let moved := blocksOf (Program.items .strict "G91\nG1 Y9 E3\nM7\nG92 Z2\nG0 E-1 F7")
    List.Forall₂ (Block.Agrees [.x, .y, .z]) bs dry ∧
    List.Forall₂
      (Alike fun move move' => move.start = move'.start ∧ move.finish = move'.finish ∧
        move.rapid = move'.rapid ∧ move.line = move'.line)
      (ofBlocks bs).outcomes (ofBlocks dry).outcomes ∧
    List.Forall₂ (Block.Agrees [.e]) bs moved ∧
    (ofBlocks bs).finished.machine.extruded = (ofBlocks moved).finished.machine.extruded := by
  intro bs dry moved
  have mild : ∀ fault ∈ faultsOf (ofBlocks bs).outcomes, fault.isFatal = false := by
    rw [outcomes_ofBlocks]
    decide +kernel
  have mildDry : ∀ fault ∈ faultsOf (ofBlocks dry).outcomes, fault.isFatal = false := by
    rw [outcomes_ofBlocks]
    decide +kernel
  have mildMoved : ∀ fault ∈ faultsOf (ofBlocks moved).outcomes, fault.isFatal = false := by
    rw [outcomes_ofBlocks]
    decide +kernel
  have path : List.Forall₂ (Block.Agrees [.x, .y, .z]) bs dry := by decide +kernel
  have filament : List.Forall₂ (Block.Agrees [.e]) bs moved := by decide +kernel
  exact ⟨path, (axes_independent mild mildDry).1 path, filament,
    ((axes_independent mild mildMoved).2 filament).2⟩

end Pass

end PrintPath
