import PrintPath.Proofs.Machine.Modes

/-!
# History before an anchor

A block may put an axis at a value, move it on by some length, or leave it alone. A run
that is not ended by a fault goes through these changes and through nothing else. So
what it did to the axis before it was put somewhere makes no difference any more, and
the sum of what came after is all that there is to know.
-/

namespace PrintPath

/-! ## Changes of an axis -/

/-- What a block does to an axis, in millimetres. -/
inductive AxisChange where
  | keep
  /-- The axis is at this value, wherever it was. -/
  | anchor (v : Float)
  /-- The axis goes on by this length. -/
  | offset (v : Float)
deriving DecidableEq, Repr

/-- The axis after a change. -/
def AxisChange.apply (old : Float) : AxisChange → Float
  | keep => old
  | anchor v => v
  | offset v => old + v

/-- What a block does to an axis. Redefining a position anchors whatever the mode. -/
def Block.axisChange (b : Block) (s : Modes) (a : Axis) : AxisChange :=
  match Command.ofWord? b.command, b.axis a with
  | some .setPosition, some v => .anchor (s.unit.inMillimeters v)
  | some (.move _), some v =>
    match s.of a with
    | .absolute => .anchor (s.unit.inMillimeters v)
    | .relative => .offset (s.unit.inMillimeters v)
  | _, _ => .keep

/-- What some blocks do to an axis, one after the other. -/
def axisChanges (a : Axis) (s : Modes) : List Block → List AxisChange
  | [] => []
  | b :: bs => b.axisChange s a :: axisChanges a (s.after b) bs

/-- A block that does not address an axis keeps it. -/
theorem Block.axisChange_of_none {b : Block} {a : Axis} (h : b.axis a = none) (s : Modes) :
    b.axisChange s a = .keep := by
  unfold axisChange
  rw [h]
  cases Command.ofWord? b.command with
  | none => rfl
  | some c => cases c <;> rfl

/-- The blocks that anchor an axis. -/
theorem Block.exists_anchor {b : Block} {a : Axis} {s : Modes} (supplied : (b.axis a).isSome)
    (anchors : b.command = "G92" ∨ (b.command = "G0" ∨ b.command = "G1") ∧ s.of a = .absolute) :
    ∃ v, b.axisChange s a = .anchor v := by
  obtain ⟨v, given⟩ := Option.isSome_iff_exists.mp supplied
  refine ⟨s.unit.inMillimeters v, ?_⟩
  unfold axisChange
  rw [given]
  rcases anchors with word | ⟨word, mode⟩
  · rw [word]
    rfl
  · rw [mode]
    rcases word with word | word <;> rw [word] <;> rfl

namespace Machine

/-! ## One block -/

theorem axis_apply (m : Machine) {b : Block} {c : Command}
    (known : Command.ofWord? b.command = some c) (a : Axis) :
    (m.apply b c).1.axis a = (b.axisChange m.modes a).apply (m.axis a) := by
  unfold Block.axisChange
  rw [known]
  cases c with
  | move rapid =>
      show (m.afterMove b).axis a = _
      rw [axis_afterMove, movedTo]
      cases b.axis a with
      | none => rfl
      | some v => cases mode : m.modes.of a <;> rfl
  | setPosition =>
      show (m.afterPlacing b).axis a = _
      rw [axis_afterPlacing, placedAt]
      cases b.axis a <;> rfl
  | selectUnit unit => exact (numbers_apply m b rfl).1 a
  | selectPositioning mode => exact (numbers_apply m b rfl).1 a
  | selectExtrusion mode => exact (numbers_apply m b rfl).1 a
  | releaseMotors => exact (numbers_apply m b rfl).1 a

theorem axis_of_step {m : Machine} {b : Block} {r : Machine × Option Move}
    (step : m.step b = .ok r) (a : Axis) :
    r.1.axis a = (b.axisChange m.modes a).apply (m.axis a) := by
  obtain ⟨c, known, rfl, -⟩ := step_eq_ok_iff.mp step
  exact axis_apply m known a

/-- The faults of the blocks that a run passes over. -/
def faults (m : Machine) : List Block → List Fault
  | [] => []
  | b :: bs =>
    match m.step b with
    | .ok (m', _) => faults m' bs
    | .error fault => fault :: faults m bs

theorem faults_cons_of_ok {m : Machine} {b : Block} {r : Machine × Option Move}
    (h : m.step b = .ok r) (bs : List Block) : m.faults (b :: bs) = r.1.faults bs := by
  simp [faults, h]

theorem faults_cons_of_error {m : Machine} {b : Block} {fault : Fault}
    (h : m.step b = .error fault) (bs : List Block) :
    m.faults (b :: bs) = fault :: m.faults bs := by
  simp [faults, h]

/-- The faults of a run come one block after the other. -/
theorem faults_append (m : Machine) (bs cs : List Block) :
    m.faults (bs ++ cs) = m.faults bs ++ (m.run bs).faults cs := by
  induction bs generalizing m with
  | nil => rfl
  | cons b bs ih =>
      rw [List.cons_append]
      cases step : m.step b with
      | ok r => rw [faults_cons_of_ok step, faults_cons_of_ok step, run_cons_of_ok step, ih]
      | error fault =>
          rw [faults_cons_of_error step, faults_cons_of_error step, run_cons_of_error step, ih,
            List.cons_append]

/-! ## A run -/

/-- A run without a fatal fault goes through the changes of an axis. -/
theorem axis_run {m : Machine} {bs : List Block}
    (mild : ∀ fault ∈ m.faults bs, fault.isFatal = false) (a : Axis) :
    (m.run bs).axis a = (axisChanges a m.modes bs).foldl AxisChange.apply (m.axis a) := by
  induction bs generalizing m with
  | nil => rfl
  | cons b bs ih =>
      rw [axisChanges, List.foldl_cons, Modes.after]
      cases step : m.step b with
      | ok r =>
          rw [faults_cons_of_ok step] at mild
          rw [run_cons_of_ok step, ih mild, axis_of_step step]
          obtain ⟨c, known, rfl, -⟩ := step_eq_ok_iff.mp step
          rw [known, modes_apply]
      | error fault =>
          rw [faults_cons_of_error step, List.forall_mem_cons] at mild
          rcases step_eq_error_iff.mp step with ⟨unknown, -⟩ | ⟨_, q, -, -, rfl⟩
          -- Of the faults that end no run there is only the unknown command.
          · have kept : b.axisChange m.modes a = .keep := by rw [Block.axisChange, unknown]
            rw [run_cons_of_error step, ih mild.2, unknown, kept]
            rfl
          · cases mild.1

theorem mild_of_initial {m : Machine} {pre bs : List Block} (h : pre <+: bs)
    (mild : ∀ fault ∈ m.faults bs, fault.isFatal = false) :
    ∀ fault ∈ m.faults pre, fault.isFatal = false := by
  obtain ⟨post, rfl⟩ := h
  rw [faults_append, List.forall_mem_append] at mild
  exact mild.1

/-- Behind an anchor it makes no difference where the axis was. -/
theorem axis_run_of_anchor {m : Machine} {b : Block} {bs : List Block} {a : Axis} {v : Float}
    (anchor : b.axisChange m.modes a = .anchor v)
    (mild : ∀ fault ∈ m.faults (b :: bs), fault.isFatal = false) (start : Float) :
    (m.run (b :: bs)).axis a = (axisChanges a m.modes (b :: bs)).foldl AxisChange.apply start := by
  rw [axis_run mild, axisChanges, anchor]
  rfl

/-- An axis stays where it is as long as no block addresses it that is not refused. -/
theorem axis_run_of_none {m : Machine} {bs : List Block} {a : Axis}
    (unaddressed : ∀ pre b post, bs = pre ++ b :: post →
      (∃ r, (m.run pre).step b = .ok r) → b.axis a = none) :
    (m.run bs).axis a = m.axis a := by
  induction bs using List.reverseRecOn with
  | nil => rfl
  | append_singleton bs b ih =>
      have before := ih fun pre c post split =>
        unaddressed pre c (post ++ [b]) (by rw [split, List.append_assoc, List.cons_append])
      rw [run_snoc]
      cases step : (m.run bs).step b with
      | ok r =>
          have none := unaddressed bs b [] rfl ⟨r, step⟩
          rw [after_of_ok step, axis_of_step step, Block.axisChange_of_none none, ← before]
          rfl
      | error fault => rw [after_of_error step, before]

/-- No filament has been pushed since the extruder's axis was put at zero. -/
theorem extruded_of_zero {m : Machine} {b : Block} {r : Machine × Option Move}
    (word : b.command = "G92") (zero : b.axis .e = some 0) (step : m.step b = .ok r) :
    r.1.extruded = 0 := by
  have changed : r.1.axis .e = (b.axisChange m.modes .e).apply (m.axis .e) := axis_of_step step .e
  rw [Block.axisChange, word, zero] at changed
  refine changed.trans ?_
  show m.unit.inMillimeters 0 = 0
  cases m.unit <;> decide +kernel

/-- **History before an anchor is forgotten.** Let two machines in the same modes run through the
same blocks without a fatal fault, and let the first block put an axis somewhere: by
redefining its position, or by a move in absolute mode. From then on the axis is at the
same value in both runs, and this is what comes of the changes that the blocks have made
to it, wherever one starts. In particular, once the extruder's axis is put at zero it
stays there until the next block that addresses it and is not refused. -/
theorem history_forgotten {a : Axis} {m n : Machine} (modes : m.modes = n.modes) {b : Block}
    {bs : List Block} (supplied : (b.axis a).isSome)
    (anchors : b.command = "G92" ∨ (b.command = "G0" ∨ b.command = "G1") ∧ m.modeOf a = .absolute)
    (mild : ∀ fault ∈ m.faults (b :: bs), fault.isFatal = false)
    (mild' : ∀ fault ∈ n.faults (b :: bs), fault.isFatal = false) :
    (∀ pre, pre <+: bs →
      (m.run (b :: pre)).axis a = (n.run (b :: pre)).axis a ∧
      ∀ start, (m.run (b :: pre)).axis a =
        (axisChanges a m.modes (b :: pre)).foldl AxisChange.apply start) ∧
    (a = .e → b.command = "G92" → b.axis .e = some 0 → ∀ pre, pre <+: bs →
      (∀ before c after, pre = before ++ c :: after →
        (∃ r, (m.run (b :: before)).step c = .ok r) → c.axis .e = none) →
      (m.run (b :: pre)).extruded = 0) := by
  rw [modeOf_eq] at anchors
  obtain ⟨v, anchor⟩ := Block.exists_anchor supplied anchors
  refine ⟨fun pre h => ?_, ?_⟩
  · have short : b :: pre <+: b :: bs := List.cons_prefix_cons.mpr ⟨rfl, h⟩
    have first := axis_run_of_anchor anchor (mild_of_initial short mild)
    have second := axis_run_of_anchor (modes ▸ anchor) (mild_of_initial short mild')
    refine ⟨?_, first⟩
    rw [first (m.axis a), second (m.axis a), modes]
  · rintro rfl word zero pre h unaddressed
    cases step : m.step b with
    | error fault =>
        rw [faults_cons_of_error step, List.forall_mem_cons] at mild
        rcases step_eq_error_iff.mp step with ⟨unknown, -⟩ | ⟨_, _, -, -, rfl⟩
        · rw [word] at unknown
          cases unknown
        · cases mild.1
    | ok r =>
        have still : (r.1.run pre).axis .e = r.1.axis .e :=
          axis_run_of_none fun before c after split accepted =>
            unaddressed before c after split (by rwa [run_cons_of_ok step])
        rw [run_cons_of_ok step]
        exact still.trans (extruded_of_zero word zero step)

/-- Two machines that have nothing in common but their modes, an unknown command, and an
offset in inches. -/
theorem history_forgotten_of_two_machines :
    let m : Machine := { position := ⟨5, 6, 7⟩, extruded := 100 }
    let n : Machine := { extruded := -3.5, feedRate := 60 }
    let b := (Block.bare "G1" 1).withArgument 'e' 10
    let bs := [.bare "M83" 2, .bare "M7" 3, .bare "G20" 4, (Block.bare "G0" 5).withArgument 'e' 2]
    (∀ fault ∈ m.faults (b :: bs), fault.isFatal = false) ∧
    (∀ fault ∈ n.faults (b :: bs), fault.isFatal = false) ∧
    (m.run (b :: bs)).axis .e = (n.run (b :: bs)).axis .e ∧
    (m.run (b :: bs)).axis .e = 10 + 2 * 25.4 := by
  intro m n b bs
  have mild : ∀ fault ∈ m.faults (b :: bs), fault.isFatal = false := by decide +kernel
  have mild' : ∀ fault ∈ n.faults (b :: bs), fault.isFatal = false := by decide +kernel
  obtain ⟨same, sum⟩ := (history_forgotten (a := .e) (m := m) (n := n) rfl (by decide +kernel)
    (Or.inr ⟨Or.inr rfl, rfl⟩) mild mild').1 bs List.prefix_rfl
  exact ⟨mild, mild', same, (sum 0).trans (by decide +kernel)⟩

end Machine

end PrintPath
