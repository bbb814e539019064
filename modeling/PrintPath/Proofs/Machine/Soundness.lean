import PrintPath.Proofs.Machine.Run

/-!
# Sound machines

A machine is sound if all its numbers are finite. Every machine that a run can
reach is sound, because a step that would lose soundness is refused. A refused
block leaves no trace, and only a move or a redefined position can be refused
for its numbers.
-/

namespace PrintPath.Machine

/-- All numbers of a machine are finite. -/
structure Sound (m : Machine) : Prop where
  x : m.position.x.isFinite
  y : m.position.y.isFinite
  z : m.position.z.isFinite
  extruded : m.extruded.isFinite
  feedRate : m.feedRate.isFinite

theorem sound_iff_axis {m : Machine} :
    m.Sound ↔ (∀ a, (m.axis a).isFinite) ∧ m.feedRate.isFinite := by
  constructor
  · rintro ⟨x, y, z, extruded, feedRate⟩
    refine ⟨fun a => ?_, feedRate⟩
    cases a <;> assumption
  · rintro ⟨axis, feedRate⟩
    exact ⟨axis .x, axis .y, axis .z, axis .e, feedRate⟩

/-- Soundness is a matter of the numbers alone. -/
theorem sound_congr {m n : Machine} (axis : ∀ a, m.axis a = n.axis a)
    (feedRate : m.feedRate = n.feedRate) : m.Sound ↔ n.Sound := by
  simp only [sound_iff_axis, axis, feedRate]

theorem unsound?_eq_none_iff {m : Machine} : m.unsound? = none ↔ m.Sound := by
  unfold unsound? Point.isFinite
  constructor
  · intro h
    split at h
    · cases h
    · split at h
      · cases h
      · split at h
        · cases h
        · next position extruded feedRate =>
            simp only [Bool.not_eq_true', Bool.not_eq_false, Bool.and_eq_true] at *
            exact ⟨position.1.1, position.1.2, position.2, extruded, feedRate⟩
  · rintro ⟨x, y, z, extruded, feedRate⟩
    simp [x, y, z, extruded, feedRate]

theorem unsound?_eq_some_iff {m : Machine} : (∃ q, m.unsound? = some q) ↔ ¬ m.Sound := by
  rw [← unsound?_eq_none_iff, ← Option.ne_none_iff_exists']

theorem sound_initial : initial.Sound := by
  constructor <;> decide +kernel

/-! ## What a step preserves -/

theorem sound_of_step {m : Machine} {b : Block} {r : Machine × Option Move}
    (h : m.step b = .ok r) : r.1.Sound := by
  obtain ⟨_, _, _, sound⟩ := step_eq_ok_iff.mp h
  exact unsound?_eq_none_iff.mp sound

theorem sound_after {m : Machine} (b : Block) (h : m.Sound) : (m.after b).Sound := by
  cases hs : m.step b with
  | ok r =>
      rw [after_of_ok hs]
      exact sound_of_step hs
  | error fault =>
      rw [after_of_error hs]
      exact h

theorem sound_run (bs : List Block) : (initial.run bs).Sound :=
  run_induction sound_initial (fun _ b => sound_after b) bs

/-! ## What a step can fail on -/

theorem step_eq_unknown_iff {m : Machine} {b : Block} :
    (∃ n w, m.step b = .error (.unknownCommand n w)) ↔ Command.ofWord? b.command = none := by
  constructor
  · rintro ⟨n, w, h⟩
    rcases step_eq_error_iff.mp h with ⟨unknown, _⟩ | ⟨_, _, _, _, h⟩
    · exact unknown
    · cases h
  · intro unknown
    exact ⟨_, _, step_unknown m unknown⟩

theorem step_eq_notFinite_iff {m : Machine} {b : Block} :
    (∃ n q, m.step b = .error (.notFinite n q)) ↔
      ∃ c, Command.ofWord? b.command = some c ∧ ¬ (m.apply b c).1.Sound := by
  constructor
  · rintro ⟨n, q, h⟩
    rcases step_eq_error_iff.mp h with ⟨_, h⟩ | ⟨c, q', known, unsound, _⟩
    · cases h
    · exact ⟨c, known, unsound?_eq_some_iff.mp ⟨q', unsound⟩⟩
  · rintro ⟨c, known, unsound⟩
    obtain ⟨q, hq⟩ := unsound?_eq_some_iff.mpr unsound
    exact ⟨b.line, q, step_eq_error_iff.mpr (Or.inr ⟨c, q, known, hq, rfl⟩)⟩

/-- A command that reads no numbers cannot spoil a sound machine. -/
theorem isGeometric_of_notFinite {m : Machine} (sound : m.Sound) {b : Block} {n : Nat}
    {q : Quantity} (h : m.step b = .error (.notFinite n q)) :
    ∃ c, Command.ofWord? b.command = some c ∧ c.isGeometric = true := by
  obtain ⟨c, known, unsound⟩ := step_eq_notFinite_iff.mp ⟨n, q, h⟩
  refine ⟨c, known, ?_⟩
  -- Any other command leaves the numbers as they are, and those are sound.
  by_contra silent
  have numbers := numbers_apply m b (Bool.eq_false_iff.mpr silent)
  exact unsound ((sound_congr numbers.1 numbers.2).mpr sound)

theorem command_of_notFinite {m : Machine} (sound : m.Sound) {b : Block} {n : Nat}
    {q : Quantity} (h : m.step b = .error (.notFinite n q)) :
    b.command ∈ ["G0", "G1", "G92"] := by
  obtain ⟨c, known, geometric⟩ := isGeometric_of_notFinite sound h
  rw [← Command.word_of_ofWord? known]
  exact Command.word_of_isGeometric geometric

/-- **Reachable machines are sound, and steps are all or nothing.** A step
that fails changes nothing then or later, one that succeeds leaves what the
command makes of the machine. It fails for an unknown command or for a number
that would not be finite, and the latter befalls moves and redefined positions
alone. -/
theorem reachable_sound_step_atomic (bs : List Block) (b : Block) :
    let m := initial.run bs
    m.Sound ∧
    (∀ fault, m.step b = .error fault →
      m.after b = m ∧ ∀ cs, initial.run (bs ++ b :: cs) = initial.run (bs ++ cs)) ∧
    (∀ r, m.step b = .ok r →
      m.after b = r.1 ∧ ∃ c, Command.ofWord? b.command = some c ∧ r = m.apply b c) ∧
    ((∃ n w, m.step b = .error (.unknownCommand n w)) ↔
      Command.ofWord? b.command = none) ∧
    ((∃ n q, m.step b = .error (.notFinite n q)) ↔
      ∃ c, Command.ofWord? b.command = some c ∧ ¬ (m.apply b c).1.Sound) ∧
    ∀ n q, m.step b = .error (.notFinite n q) →
      n = b.line ∧ b.command ∈ ["G0", "G1", "G92"] := by
  intro m
  refine ⟨sound_run bs, ?_, ?_, step_eq_unknown_iff, step_eq_notFinite_iff, ?_⟩
  · intro fault h
    refine ⟨after_of_error h, fun cs => ?_⟩
    rw [run_append, run_cons_of_error h, ← run_append]
  · intro r h
    obtain ⟨c, known, result, _⟩ := step_eq_ok_iff.mp h
    exact ⟨after_of_ok h, c, known, result⟩
  · intro n q h
    exact ⟨line_of_step_error h, command_of_notFinite (sound_run bs) h⟩

end PrintPath.Machine
