import PrintPath.Proofs.Machine.Run

/-!
# Modeless programs

Modes and units only say what numbers mean. A run can therefore be told again
without them: every block that moved the machine or redefined its position
states the values it led to, in absolute millimetres, and everything else is
left out. The retold program is never refused, makes the same moves and ends at
the same numbers.

The proof is a simulation. At every point the machine of the retold program is
the plain form of the original one: the same numbers, under the modes in which
a machine starts.
-/

namespace PrintPath

/-! ## Arguments that are restated -/

namespace Block

theorem argument_withArgument (b : Block) (k k' : Char) (v : Float) :
    (b.withArgument k v).argument k' =
      if k'.toLower = k.toLower then some v else b.argument k' :=
  Arguments.get?_insert b.arguments k.toLower k'.toLower v

theorem axis_withArgument (b : Block) (a a' : Axis) (v : Float) :
    (b.withArgument a.letter v).axis a' = if a' = a then some v else b.axis a' := by
  have letters : a'.letter.toLower = a.letter.toLower ↔ a' = a := by
    cases a <;> cases a' <;> decide
  unfold axis
  rw [argument_withArgument]
  by_cases h : a' = a
  · rw [if_pos h, if_pos (letters.mpr h)]
  · rw [if_neg h, if_neg (mt letters.mp h)]

theorem feed_withAxis (b : Block) (a : Axis) (v : Float) :
    (b.withArgument a.letter v).argument 'f' = b.argument 'f' := by
  have other : Char.toLower 'f' ≠ a.letter.toLower := by
    cases a <;> decide
  rw [argument_withArgument, if_neg other]

theorem axis_withFeed (b : Block) (a : Axis) (v : Float) :
    (b.withArgument 'f' v).axis a = b.axis a := by
  have other : a.letter.toLower ≠ Char.toLower 'f' := by
    cases a <;> decide
  unfold axis
  rw [argument_withArgument, if_neg other]

/-- Adds those of the axes that `b` has to a block, with the values of a
machine. -/
def restateAxes (b : Block) (m : Machine) (axes : List Axis) (c : Block) : Block :=
  axes.foldl
    (fun c a => if (b.axis a).isSome then c.withArgument a.letter (m.axis a) else c) c

/-- Adds the feed rate of a machine to a block if `b` has one. -/
def restateFeed (b : Block) (m : Machine) (c : Block) : Block :=
  if (b.argument 'f').isSome then c.withArgument 'f' m.feedRate else c

/-- The block that leads a plain machine to where `b` has led `m`. Only moves
and redefined positions have one. -/
def restate? (b : Block) (m : Machine) : Option Block :=
  let axes := b.restateAxes m Axis.all (bare b.command b.line)
  match Command.ofWord? b.command with
  | some (.move _) => some (b.restateFeed m axes)
  | some .setPosition => some axes
  | _ => none

theorem restateAxes_cons (b : Block) (m : Machine) (a : Axis) (axes : List Axis) (c : Block) :
    b.restateAxes m (a :: axes) c = b.restateAxes m axes
      (if (b.axis a).isSome then c.withArgument a.letter (m.axis a) else c) := rfl

theorem command_line_restateAxes (b : Block) (m : Machine) (axes : List Axis) (c : Block) :
    (b.restateAxes m axes c).command = c.command ∧ (b.restateAxes m axes c).line = c.line := by
  induction axes generalizing c with
  | nil => exact ⟨rfl, rfl⟩
  | cons a axes ih =>
      rw [restateAxes_cons]
      obtain ⟨command, line⟩ :=
        ih (if (b.axis a).isSome then c.withArgument a.letter (m.axis a) else c)
      rw [command, line]
      split <;> exact ⟨rfl, rfl⟩

theorem axis_restateAxes (b : Block) (m : Machine) (axes : List Axis) (c : Block) (a : Axis) :
    (b.restateAxes m axes c).axis a =
      if a ∈ axes ∧ (b.axis a).isSome then some (m.axis a) else c.axis a := by
  induction axes generalizing c with
  | nil => simp [restateAxes]
  | cons a' axes ih =>
      rw [restateAxes_cons, ih]
      by_cases supplied : (b.axis a').isSome
      · rw [if_pos supplied, axis_withArgument]
        by_cases h : a = a'
        · subst h
          simp [supplied]
        · simp [h]
      · rw [if_neg supplied]
        by_cases h : a = a'
        · subst h
          simp [supplied]
        · simp [h]

theorem feed_restateAxes (b : Block) (m : Machine) (axes : List Axis) (c : Block) :
    (b.restateAxes m axes c).argument 'f' = c.argument 'f' := by
  induction axes generalizing c with
  | nil => rfl
  | cons a axes ih =>
      rw [restateAxes_cons, ih]
      split
      · exact feed_withAxis c a _
      · rfl

/-- `c` is for the command and the line of `b` and states the values of `m` on
exactly those axes that `b` has. -/
structure Restates (c b : Block) (m : Machine) : Prop where
  command : c.command = b.command
  line : c.line = b.line
  axis : ∀ a, c.axis a = (b.axis a).map fun _ => m.axis a

theorem restates_axes (b : Block) (m : Machine) :
    Restates (b.restateAxes m Axis.all (bare b.command b.line)) b m := by
  obtain ⟨command, line⟩ := command_line_restateAxes b m Axis.all (bare b.command b.line)
  refine ⟨command, line, fun a => ?_⟩
  rw [axis_restateAxes]
  cases h : b.axis a with
  | none => exact if_neg (by simp)
  | some v => exact if_pos ⟨a.mem_all, rfl⟩

theorem Restates.feed {c b : Block} {m : Machine} (h : Restates c b m) :
    Restates (b.restateFeed m c) b m := by
  unfold restateFeed
  split
  · exact ⟨h.command, h.line, fun a => (axis_withFeed c a _).trans (h.axis a)⟩
  · exact h

theorem feed_restateFeed (b : Block) (m : Machine) :
    (b.restateFeed m (b.restateAxes m Axis.all (bare b.command b.line))).argument 'f' =
      (b.argument 'f').map fun _ => m.feedRate := by
  unfold restateFeed
  cases h : b.argument 'f' with
  | none => exact feed_restateAxes b m Axis.all _
  | some v => simp [argument_withArgument]

theorem restate?_move {b : Block} {rapid : Bool}
    (h : Command.ofWord? b.command = some (.move rapid)) (m : Machine) :
    ∃ c, b.restate? m = some c ∧ Restates c b m ∧
      c.argument 'f' = (b.argument 'f').map fun _ => m.feedRate := by
  refine ⟨_, ?_, (restates_axes b m).feed, feed_restateFeed b m⟩
  simp [restate?, h]

theorem restate?_setPosition {b : Block}
    (h : Command.ofWord? b.command = some .setPosition) (m : Machine) :
    ∃ c, b.restate? m = some c ∧ Restates c b m := by
  refine ⟨_, ?_, restates_axes b m⟩
  simp [restate?, h]

theorem restate?_eq_none {b : Block} {c : Command} (h : Command.ofWord? b.command = some c)
    (silent : c.isGeometric = false) (m : Machine) : b.restate? m = none := by
  unfold restate?
  rw [h]
  cases c <;> first | rfl | cases silent

end Block

/-! ## The plain form of a machine -/

namespace Machine

open Block (Restates)

/-- The modes in which a machine starts: absolute millimetres. -/
def plainModes : Modes :=
  ⟨.absolute, .absolute, .millimeters⟩

/-- The machine with the same numbers, in absolute millimetres. -/
def plain (m : Machine) : Machine :=
  { m with positioning := .absolute, extrusion := .absolute, unit := .millimeters }

theorem plain_initial : initial.plain = initial := rfl

theorem modes_plain (m : Machine) : m.plain.modes = plainModes := rfl

theorem axis_plain (m : Machine) (a : Axis) : m.plain.axis a = m.axis a := by
  cases a <;> rfl

/-- In absolute millimetres an argument is the new value. -/
theorem movedTo_plain (b : Block) (a : Axis) (old : Float) :
    movedTo b plainModes a old = (b.axis a).getD old := by
  unfold movedTo
  cases b.axis a with
  | none => rfl
  | some v => cases a <;> rfl

theorem placedAt_plain (b : Block) (a : Axis) (old : Float) :
    placedAt b plainModes a old = (b.axis a).getD old := by
  unfold placedAt
  cases b.axis a <;> rfl

theorem feedTo_plain (b : Block) (old : Float) :
    feedTo b plainModes old = (b.argument 'f').getD old := by
  unfold feedTo
  cases b.argument 'f' <;> rfl

theorem plain_afterMove {m : Machine} {b c : Block} (h : Restates c b (m.afterMove b))
    (feed : c.argument 'f' = (b.argument 'f').map fun _ => (m.afterMove b).feedRate) :
    m.plain.afterMove c = (m.afterMove b).plain := by
  refine ext_axis (fun a => ?_) ?_ ?_
  · rw [axis_afterMove, modes_plain, movedTo_plain, h.axis, axis_plain, axis_plain]
    cases supplied : b.axis a with
    | none => simp [axis_afterMove, movedTo, supplied]
    | some v => rfl
  · show (m.plain.afterMove c).feedRate = (m.afterMove b).feedRate
    rw [feedRate_afterMove, modes_plain, feedTo_plain, feed]
    cases supplied : b.argument 'f' with
    | none => simp [feedRate_afterMove, feedTo, supplied, plain]
    | some v => rfl
  · rw [modes_afterMove]
    rfl

theorem plain_afterPlacing {m : Machine} {b c : Block}
    (h : Restates c b (m.afterPlacing b)) :
    m.plain.afterPlacing c = (m.afterPlacing b).plain := by
  refine ext_axis (fun a => ?_) ?_ ?_
  · rw [axis_afterPlacing, modes_plain, placedAt_plain, h.axis, axis_plain, axis_plain]
    cases supplied : b.axis a with
    | none => simp [axis_afterPlacing, placedAt, supplied]
    | some v => rfl
  · rw [feedRate_afterPlacing]
    exact (feedRate_afterPlacing m b).symm
  · rw [modes_afterPlacing]
    rfl

/-- Commands that read no numbers do not show in the plain form. -/
theorem plain_of_not_isGeometric {m : Machine} {b : Block} {c : Command}
    (h : c.isGeometric = false) : (m.apply b c).1.plain = m.plain := by
  obtain ⟨axis, feedRate⟩ := numbers_apply m b h
  refine ext_axis (fun a => ?_) feedRate rfl
  rw [axis_plain, axis_plain, axis]

/-! ## One step retold -/

/-- A step either does not show in the plain form or is retold by one step of
it. -/
theorem restate_step {m : Machine} {b : Block} {r : Machine × Option Move}
    (h : m.step b = .ok r) :
    (b.restate? r.1 = none ∧ r.2 = none ∧ r.1.plain = m.plain) ∨
    ∃ c, b.restate? r.1 = some c ∧ m.plain.step c = .ok (r.1.plain, r.2) := by
  obtain ⟨command, known, rfl, sound⟩ := step_eq_ok_iff.mp h
  -- A retold block passes the check because it leaves the same numbers.
  have retold : ∀ c : Block, c.command = b.command →
      m.plain.apply c command = ((m.apply b command).1.plain, (m.apply b command).2) →
      m.plain.step c = .ok ((m.apply b command).1.plain, (m.apply b command).2) := by
    intro c same applied
    exact step_eq_ok_iff.mpr ⟨command, same ▸ known, applied.symm, sound⟩
  have unseen (silent : command.isGeometric = false) (still : (m.apply b command).2 = none) :
      b.restate? (m.apply b command).1 = none ∧ (m.apply b command).2 = none ∧
        (m.apply b command).1.plain = m.plain :=
    ⟨Block.restate?_eq_none known silent _, still, plain_of_not_isGeometric silent⟩
  cases command with
  | move rapid =>
      obtain ⟨c, restated, states, feed⟩ := Block.restate?_move known (m.afterMove b)
      refine Or.inr ⟨c, restated, retold c states.command ?_⟩
      show (m.plain.afterMove c, some (m.plain.moveBetween (m.plain.afterMove c) rapid c.line)) = _
      rw [plain_afterMove states feed, states.line]
      rfl
  | setPosition =>
      obtain ⟨c, restated, states⟩ := Block.restate?_setPosition known (m.afterPlacing b)
      refine Or.inr ⟨c, restated, retold c states.command ?_⟩
      show (m.plain.afterPlacing c, none) = _
      rw [plain_afterPlacing states]
      rfl
  | selectUnit unit => exact Or.inl (unseen rfl rfl)
  | selectPositioning mode => exact Or.inl (unseen rfl rfl)
  | selectExtrusion mode => exact Or.inl (unseen rfl rfl)
  | releaseMotors => exact Or.inl (unseen rfl rfl)

/-! ## A whole run retold -/

/-- The retold program of a run. -/
def modeless (m : Machine) : List Block → List Block
  | [] => []
  | b :: bs =>
    match m.step b with
    | .ok (m', _) => (b.restate? m').toList ++ modeless m' bs
    | .error _ => modeless m bs

theorem modeless_cons_of_error {m : Machine} {b : Block} {fault : Fault}
    (h : m.step b = .error fault) (bs : List Block) :
    m.modeless (b :: bs) = m.modeless bs := by
  simp [modeless, h]

theorem modeless_cons_of_ok {m : Machine} {b : Block} {r : Machine × Option Move}
    (h : m.step b = .ok r) (bs : List Block) :
    m.modeless (b :: bs) = (b.restate? r.1).toList ++ r.1.modeless bs := by
  simp [modeless, h]

/-- What a retold run looks like after its first block, for inductions over
the original run: either the block does not show or it is the first step of
the retold run. -/
theorem modeless_cons_cases {m : Machine} {b : Block} {r : Machine × Option Move}
    (h : m.step b = .ok r) (bs : List Block) :
    (m.modeless (b :: bs) = r.1.modeless bs ∧ r.2 = none ∧ r.1.plain = m.plain) ∨
    ∃ c, m.modeless (b :: bs) = c :: r.1.modeless bs ∧
      m.plain.step c = .ok (r.1.plain, r.2) := by
  rw [modeless_cons_of_ok h]
  rcases restate_step h with ⟨unseen, still, same⟩ | ⟨c, restated, step⟩
  · exact Or.inl ⟨by rw [unseen]; rfl, still, same⟩
  · exact Or.inr ⟨c, by rw [restated]; rfl, step⟩

theorem run_modeless (m : Machine) (bs : List Block) :
    m.plain.run (m.modeless bs) = (m.run bs).plain := by
  induction bs generalizing m with
  | nil => rfl
  | cons b bs ih =>
      cases h : m.step b with
      | error fault => rw [modeless_cons_of_error h, run_cons_of_error h, ih]
      | ok r =>
          rw [run_cons_of_ok h, ← ih]
          rcases modeless_cons_cases h bs with ⟨program, _, same⟩ | ⟨c, program, step⟩
          · rw [program, same]
          · rw [program, run_cons_of_ok step]

theorem moves_modeless (m : Machine) (bs : List Block) :
    m.plain.moves (m.modeless bs) = m.moves bs := by
  induction bs generalizing m with
  | nil => rfl
  | cons b bs ih =>
      cases h : m.step b with
      | error fault => rw [modeless_cons_of_error h, moves_cons_of_error h, ih]
      | ok r =>
          rw [moves_cons_of_ok h, ← ih]
          rcases modeless_cons_cases h bs with ⟨program, still, same⟩ | ⟨c, program, step⟩
          · rw [program, still, same]
            rfl
          · rw [program, moves_cons_of_ok step]

/-- At every point of the retold run its machine is the plain form of one that
the original run has reached. -/
theorem run_prefix_modeless {m : Machine} {bs pre post : List Block}
    (split : m.modeless bs = pre ++ post) :
    ∃ cs, cs <+: bs ∧ m.plain.run pre = (m.run cs).plain := by
  induction bs generalizing m pre with
  | nil =>
      obtain ⟨rfl, _⟩ := List.append_eq_nil_iff.mp split.symm
      exact ⟨[], List.nil_prefix, rfl⟩
  | cons b bs ih =>
      cases h : m.step b with
      | error fault =>
          obtain ⟨cs, reached, agree⟩ := ih (modeless_cons_of_error h bs ▸ split)
          refine ⟨b :: cs, List.cons_prefix_cons.mpr ⟨rfl, reached⟩, ?_⟩
          rw [run_cons_of_error h, agree]
      | ok r =>
          rcases modeless_cons_cases h bs with ⟨program, _, same⟩ | ⟨c, program, step⟩
          · obtain ⟨cs, reached, agree⟩ := ih (program ▸ split)
            refine ⟨b :: cs, List.cons_prefix_cons.mpr ⟨rfl, reached⟩, ?_⟩
            rw [run_cons_of_ok h, ← same, agree]
          · -- Before its own first block the retold run is where it started.
            cases pre with
            | nil => exact ⟨[], List.nil_prefix, rfl⟩
            | cons c' pre =>
                obtain ⟨rfl, rest⟩ := List.cons.inj (program.symm.trans split)
                obtain ⟨cs, reached, agree⟩ := ih rest
                refine ⟨b :: cs, List.cons_prefix_cons.mpr ⟨rfl, reached⟩, ?_⟩
                rw [run_cons_of_ok step, run_cons_of_ok h, agree]

/-- The retold run never meets a block that it has to pass over. -/
theorem step_modeless {m : Machine} {bs pre post : List Block} {c : Block}
    (split : m.modeless bs = pre ++ c :: post) :
    ∃ r, (m.plain.run pre).step c = .ok r := by
  induction bs generalizing m pre with
  | nil => simp [modeless] at split
  | cons b bs ih =>
      cases h : m.step b with
      | error fault => exact ih (modeless_cons_of_error h bs ▸ split)
      | ok r =>
          rcases modeless_cons_cases h bs with ⟨program, _, same⟩ | ⟨c', program, step⟩
          · exact same ▸ ih (program ▸ split)
          · cases pre with
            | nil =>
                obtain ⟨rfl, _⟩ := List.cons.inj (program.symm.trans split)
                exact ⟨_, step⟩
            | cons c'' pre =>
                obtain ⟨rfl, rest⟩ := List.cons.inj (program.symm.trans split)
                rw [run_cons_of_ok step]
                exact ih rest

/-- **Modal commands compile away.** The retold program runs in absolute
millimetres from beginning to end, is never refused, makes the moves of the
original run in every detail and ends at its numbers. -/
theorem modeless_equivalent (bs : List Block) :
    let program := initial.modeless bs
    (∀ pre, pre <+: program →
      (initial.run pre).modes = ⟨.absolute, .absolute, .millimeters⟩) ∧
    (∀ pre c post, program = pre ++ c :: post → ∃ r, (initial.run pre).step c = .ok r) ∧
    initial.moves program = initial.moves bs ∧
    (initial.run program).position = (initial.run bs).position ∧
    (initial.run program).extruded = (initial.run bs).extruded ∧
    (initial.run program).feedRate = (initial.run bs).feedRate := by
  intro program
  have ending : initial.run program = (initial.run bs).plain := by
    rw [← run_modeless, plain_initial]
  refine ⟨?_, ?_, ?_, ?_⟩
  · rintro pre ⟨post, split⟩
    obtain ⟨cs, _, agree⟩ := run_prefix_modeless (m := initial) split.symm
    rw [plain_initial] at agree
    rw [agree]
    rfl
  · intro pre c post split
    have step := step_modeless (m := initial) split
    rwa [plain_initial] at step
  · have same := moves_modeless initial bs
    rwa [plain_initial] at same
  · rw [ending]
    exact ⟨rfl, rfl, rfl⟩

end Machine

end PrintPath
