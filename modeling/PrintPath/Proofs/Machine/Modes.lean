import PrintPath.Proofs.Machine.Soundness

/-!
# The modes of a run

A command that switches a mode reads no numbers, and so a sound machine never
refuses it. Nothing else switches a mode. The modes of a machine are therefore
those that the commands before have named last, whatever else there was between
them.
-/

namespace PrintPath

/-! ## What a word names -/

/-- The unit that the word of a command selects. -/
def unitNamed : String → Option LengthUnit
  | "G20" => some .inches
  | "G21" => some .millimeters
  | _ => none

/-- The mode of the axes in space that the word of a command selects. -/
def positioningNamed : String → Option Positioning
  | "G90" => some .absolute
  | "G91" => some .relative
  | _ => none

/-- The mode of the extruder that the word of a command selects. The commands for
all axes select it as well. -/
def extrusionNamed : String → Option Positioning
  | "G90" => some .absolute
  | "G91" => some .relative
  | "M82" => some .absolute
  | "M83" => some .relative
  | _ => none

/-- What the last of some blocks to name anything has named. -/
def lastNamed {α : Type} (named : String → Option α) (bs : List Block) : Option α :=
  (bs.filterMap fun b => named b.command).getLast?

theorem lastNamed_snoc {α : Type} (named : String → Option α) (bs : List Block) (b : Block) :
    lastNamed named (bs ++ [b]) = (named b.command).or (lastNamed named bs) := by
  unfold lastNamed
  rw [List.filterMap_append, List.getLast?_append]
  cases h : named b.command <;> simp [h]

/-! ## One block -/

/-- A word that is no command names nothing. -/
theorem named_eq_none {w : String} (unknown : Command.ofWord? w = none) :
    unitNamed w = none ∧ positioningNamed w = none ∧ extrusionNamed w = none := by
  unfold unitNamed positioningNamed extrusionNamed
  -- The words that name something are those of commands.
  refine ⟨?_, ?_, ?_⟩ <;> split <;> first | rfl | exact absurd unknown (by decide)

namespace Machine

/-- The modes after a command are those that its word names. -/
theorem modesAfter_eq (s : Modes) (c : Command) :
    modesAfter s c =
      ⟨(positioningNamed c.word).getD s.positioning, (extrusionNamed c.word).getD s.extrusion,
        (unitNamed c.word).getD s.unit⟩ := by
  cases c with
  | move rapid => cases rapid <;> rfl
  | setPosition => rfl
  | selectUnit unit => cases unit <;> rfl
  | selectPositioning mode => cases mode <;> rfl
  | selectExtrusion mode => cases mode <;> rfl
  | releaseMotors => rfl

theorem modesAfter_of_isGeometric (s : Modes) {c : Command} (h : c.isGeometric = true) :
    modesAfter s c = s := by
  cases c with
  | move rapid => rfl
  | setPosition => rfl
  | selectUnit unit => cases h
  | selectPositioning mode => cases h
  | selectExtrusion mode => cases h
  | releaseMotors => cases h

end Machine

/-- The modes after a block. -/
def Modes.after (s : Modes) (b : Block) : Modes :=
  match Command.ofWord? b.command with
  | some c => Machine.modesAfter s c
  | none => s

theorem Modes.after_eq (s : Modes) (b : Block) :
    s.after b =
      ⟨(positioningNamed b.command).getD s.positioning,
        (extrusionNamed b.command).getD s.extrusion, (unitNamed b.command).getD s.unit⟩ := by
  unfold after
  cases known : Command.ofWord? b.command with
  | none =>
      obtain ⟨unit, positioning, extrusion⟩ := named_eq_none known
      rw [unit, positioning, extrusion]
      rfl
  | some c =>
      rw [← Command.word_of_ofWord? known]
      exact Machine.modesAfter_eq s c

namespace Machine

/-- The modes of a sound machine go by the commands alone: a block that it refuses
would not have changed them. -/
theorem modes_after {m : Machine} (sound : m.Sound) (b : Block) :
    (m.after b).modes = m.modes.after b := by
  unfold Modes.after
  cases step : m.step b with
  | ok r =>
      obtain ⟨c, known, rfl, -⟩ := step_eq_ok_iff.mp step
      rw [after_of_ok step, known, modes_apply]
  | error fault =>
      rw [after_of_error step]
      rcases step_eq_error_iff.mp step with ⟨unknown, -⟩ | ⟨_, q, -, -, rfl⟩
      · rw [unknown]
      · obtain ⟨c, known, geometric⟩ := isGeometric_of_notFinite sound step
        rw [known]
        exact (modesAfter_of_isGeometric _ geometric).symm

/-- A mode that every block sets to what it names, if it names any, is the one that was
named last. -/
theorem mode_run {α : Type} (mode : Modes → α) {named : String → Option α}
    (after : ∀ s b, mode (s.after b) = (named b.command).getD (mode s)) {m : Machine}
    (sound : m.Sound) (bs : List Block) :
    mode (m.run bs).modes = (lastNamed named bs).getD (mode m.modes) := by
  induction bs using List.reverseRecOn with
  | nil => rfl
  | append_singleton bs b ih =>
      have before : (m.run bs).Sound := run_induction sound (fun _ b => sound_after b) bs
      rw [run_snoc, modes_after before, after, ih, lastNamed_snoc]
      cases named b.command <;> rfl

/-- A command that is not geometric is never refused by a sound machine, and makes no
move. -/
theorem step_of_not_isGeometric {m : Machine} (sound : m.Sound) {b : Block} {c : Command}
    (known : Command.ofWord? b.command = some c) (silent : c.isGeometric = false) :
    m.step b = .ok ((m.apply b c).1, none) := by
  obtain ⟨axis, feedRate⟩ := numbers_apply m b silent
  have still : (m.apply b c).2 = none := by
    cases c with
    | move rapid => cases silent
    | setPosition => cases silent
    | selectUnit unit => rfl
    | selectPositioning mode => rfl
    | selectExtrusion mode => rfl
    | releaseMotors => rfl
  refine step_eq_ok_iff.mpr ⟨c, known, Prod.ext rfl still.symm, ?_⟩
  exact unsound?_eq_none_iff.mpr ((sound_congr axis feedRate).mpr sound)

/-- **The last mode command alone counts.** After any blocks the unit is the one that
the last `G20` or `G21` among them has named, the mode of the axes in space that of the
last `G90` or `G91`, and the mode of the extruder that of the last of these two or of
`M82` and `M83`. Where there was none, it is still the one in which a machine starts.
None of these commands is ever refused. -/
theorem modes_of_last_command (bs : List Block) :
    (initial.run bs).unit = (lastNamed unitNamed bs).getD .millimeters ∧
    (initial.run bs).positioning = (lastNamed positioningNamed bs).getD .absolute ∧
    (initial.run bs).extrusion = (lastNamed extrusionNamed bs).getD .absolute ∧
    ∀ b : Block, b.command ∈ ["G20", "G21", "G90", "G91", "M82", "M83"] →
      ∃ m, (initial.run bs).step b = .ok (m, none) := by
  have sound := sound_initial
  refine ⟨mode_run Modes.unit (fun s b => by rw [Modes.after_eq]) sound bs,
    mode_run Modes.positioning (fun s b => by rw [Modes.after_eq]) sound bs,
    mode_run Modes.extrusion (fun s b => by rw [Modes.after_eq]) sound bs, ?_⟩
  intro b named
  have known : ∀ w ∈ ["G20", "G21", "G90", "G91", "M82", "M83"],
      ∃ c, Command.ofWord? w = some c ∧ c.isGeometric = false := by
    simp only [List.forall_mem_cons]
    exact ⟨⟨_, rfl, rfl⟩, ⟨_, rfl, rfl⟩, ⟨_, rfl, rfl⟩, ⟨_, rfl, rfl⟩, ⟨_, rfl, rfl⟩,
      ⟨_, rfl, rfl⟩, by simp⟩
  obtain ⟨c, known, silent⟩ := known b.command named
  exact ⟨_, step_of_not_isGeometric (sound_run bs) known silent⟩

end Machine

end PrintPath
