import PrintPath.Proofs.Block.Text
import PrintPath.Proofs.Machine.Modeless
import PrintPath.Proofs.Pass.Handoff
import PrintPath.Proofs.Toolpath.Build

/-!
# Programs in absolute millimetres

A line is read only if its numbers are finite, and a machine in absolute
millimetres copies them without any arithmetic. So a program that never leaves
these modes keeps its machine sound however large its numbers are: no fatal fault
ends it, and in best-effort mode it always gives a toolpath.
-/

namespace PrintPath

/-- The words of the commands that lead away from absolute millimetres. -/
def Command.departures : List String := ["G20", "G91", "M83"]

/-! ## Numbers that were read -/

theorem Block.Readable.isFinite_argument {b : Block} (h : b.Readable) {letter : Char} {v : Float}
    (given : b.argument letter = some v) : v.isFinite = true := by
  obtain ⟨before, after, entries, -⟩ := List.lookup_eq_some_iff.mp given
  exact (h.arguments (letter.toLower, v) (by simp [entries])).number

/-- A line that is refused was refused for an argument, and that is not fatal. -/
theorem Line.isFatal_of_read {s : Strictness} {n : Nat} {line : List Char} {fault : Fault}
    (h : read s n line = .error fault) : fault.isFatal = false := by
  cases s with
  | strict =>
      obtain ⟨_, _, _, _, _, _, _, rfl⟩ := read_strict_eq_error_iff.mp h
      rfl
  | lenient =>
      obtain ⟨_, read⟩ := exists_read_lenient n line
      rw [read] at h
      cases h

/-! ## Machines in absolute millimetres -/

namespace Machine

/-- A sound machine in the modes in which a machine starts. -/
structure Metric (m : Machine) : Prop where
  sound : m.Sound
  modes : m.modes = plainModes

theorem metric_initial : initial.Metric :=
  ⟨sound_initial, rfl⟩

theorem modesAfter_plainModes {c : Command} (stays : c.word ∉ Command.departures) :
    modesAfter plainModes c = plainModes := by
  cases c with
  | move rapid => rfl
  | setPosition => rfl
  | releaseMotors => rfl
  | selectUnit unit =>
      cases unit with
      | millimeters => rfl
      | inches => exact absurd (by decide) stays
  | selectPositioning mode =>
      cases mode with
      | absolute => rfl
      | relative => exact absurd (by decide) stays
  | selectExtrusion mode =>
      cases mode with
      | absolute => rfl
      | relative => exact absurd (by decide) stays

/-- A number that is overwritten by a finite one or not at all stays finite. -/
theorem isFinite_getD {v? : Option Float} {old : Float} (new : ∀ v, v? = some v → v.isFinite = true)
    (kept : old.isFinite = true) : (v?.getD old).isFinite = true := by
  cases v? with
  | none => exact kept
  | some v => exact new v rfl

section Apply

variable {m : Machine} {b : Block}

theorem Metric.sound_apply (h : m.Metric) (readable : b.Readable) (c : Command) :
    (m.apply b c).1.Sound := by
  obtain ⟨axis, feedRate⟩ := sound_iff_axis.mp h.sound
  have copied (a : Axis) : ((b.axis a).getD (m.axis a)).isFinite = true :=
    isFinite_getD (fun _ given => readable.isFinite_argument given) (axis a)
  cases geometric : c.isGeometric with
  | false =>
      obtain ⟨sameAxis, sameFeed⟩ := numbers_apply m b geometric
      exact (sound_congr sameAxis sameFeed).mpr h.sound
  | true =>
      cases c with
      | move rapid =>
          refine sound_iff_axis.mpr ⟨fun a => ?_, ?_⟩
          · show ((m.afterMove b).axis a).isFinite
            rw [axis_afterMove, h.modes, movedTo_plain]
            exact copied a
          · show (m.afterMove b).feedRate.isFinite
            rw [feedRate_afterMove, h.modes, feedTo_plain]
            exact isFinite_getD (fun _ given => readable.isFinite_argument given) feedRate
      | setPosition =>
          refine sound_iff_axis.mpr ⟨fun a => ?_, ?_⟩
          · show ((m.afterPlacing b).axis a).isFinite
            rw [axis_afterPlacing, h.modes, placedAt_plain]
            exact copied a
          · show (m.afterPlacing b).feedRate.isFinite
            rw [feedRate_afterPlacing]
            exact feedRate
      | selectUnit unit => cases geometric
      | selectPositioning mode => cases geometric
      | selectExtrusion mode => cases geometric
      | releaseMotors => cases geometric

/-- A block that was read and does not change the modes leaves the machine metric,
or it is refused for its command. -/
theorem Metric.step (h : m.Metric) (readable : b.Readable)
    (stays : b.command ∉ Command.departures) :
    (∃ r, m.step b = .ok r ∧ r.1.Metric) ∨
      m.step b = .error (.unknownCommand b.line b.command) := by
  cases known : Command.ofWord? b.command with
  | none => exact Or.inr (step_unknown m known)
  | some c =>
      left
      have sound := h.sound_apply readable c
      refine ⟨m.apply b c, ?_, sound, ?_⟩
      · exact step_eq_ok_iff.mpr ⟨c, known, rfl, unsound?_eq_none_iff.mpr sound⟩
      · rw [modes_apply, h.modes]
        refine modesAfter_plainModes ?_
        rwa [Command.word_of_ofWord? known]

end Apply

end Machine

/-! ## Runs in absolute millimetres -/

/-- An item that cannot lead a machine away from absolute millimetres: a block that
was read and does not change the modes, or a fault that is not fatal. -/
def Item.Stays (item : Item) : Prop :=
  match item.result with
  | .ok b => b.Readable ∧ b.command ∉ Command.departures
  | .error fault => fault.isFatal = false

namespace Item.Stays

variable {item : Item} {m : Machine} (stays : item.Stays) (metric : m.Metric)

include stays metric

theorem mild_of_run {fault : Fault} (h : item.run m = .error fault) : fault.isFatal = false := by
  unfold Item.Stays at stays
  rcases Item.run_eq_error_iff.mp h with refused | ⟨b, read, step⟩
  · rw [refused] at stays
    exact stays
  · rw [read] at stays
    rcases metric.step stays.1 stays.2 with ⟨r, ok, -⟩ | unknown
    · rw [ok] at step
      cases step
    · rw [unknown] at step
      cases step
      rfl

theorem metric_of_run {m' : Machine} {move : Option Move} (h : item.run m = .ok (m', move)) :
    m'.Metric := by
  unfold Item.Stays at stays
  obtain ⟨b, read, step⟩ := Item.run_eq_ok_iff.mp h
  rw [read] at stays
  rcases metric.step stays.1 stays.2 with ⟨r, ok, after⟩ | unknown
  · rw [ok] at step
    cases step
    exact after
  · rw [unknown] at step
    cases step

end Item.Stays

/-- The items of a program stay if its blocks have no command that departs. -/
theorem Program.stays_of_mem_items {s : Strictness} {program : String}
    (h : ∀ b ∈ Pass.blocksOf (items s program), b.command ∉ Command.departures) :
    ∀ item ∈ items s program, item.Stays := by
  intro item mem
  obtain ⟨⟨line, n⟩, -, given⟩ := List.mem_filterMap.mp mem
  have read := Item.read_of_ofLine? given
  unfold Item.Stays
  cases result : item.result with
  | ok b =>
      rw [result] at read
      exact ⟨Line.readable_of_read read,
        h b (List.mem_filterMap.mpr ⟨item, mem, by rw [result]; rfl⟩)⟩
  | error fault =>
      rw [result] at read
      exact Line.isFatal_of_read read

namespace Pass

theorem mild_of_metric {policy : ErrorPolicy} {m : Machine} {items : List Item} (metric : m.Metric)
    (stays : ∀ item ∈ items, item.Stays) :
    ∀ fault ∈ faultsOf (outcomesOf policy m items), fault.isFatal = false := by
  induction m, items using run_induction with
  | nil m => exact fun fault mem => absurd mem List.not_mem_nil
  | fault m item rest fault h ih =>
      rw [List.forall_mem_cons] at stays
      have mild := stays.1.mild_of_run metric h
      by_cases last : ends policy fault = true
      · rw [outcomesOf_of_ends h last, faultsOf_fault, List.forall_mem_cons]
        exact ⟨mild, fun fault mem => absurd mem List.not_mem_nil⟩
      · rw [outcomesOf_of_not_ends h last, faultsOf_fault, List.forall_mem_cons]
        exact ⟨mild, ih metric stays.2⟩
  | move m item rest m' move h ih =>
      rw [List.forall_mem_cons] at stays
      rw [outcomesOf_of_move h, faultsOf_move]
      exact ih (stays.1.metric_of_run metric h) stays.2
  | silence m item rest m' h ih =>
      rw [List.forall_mem_cons] at stays
      rw [outcomesOf_of_silence h]
      exact ih (stays.1.metric_of_run metric h) stays.2

end Pass

namespace Toolpath

/-- **Programs in absolute millimetres are never ended.** If no line is read as a
command that selects inches or a relative mode, no pass over the program reports
that the machine is out of bounds, and in best-effort mode every build succeeds. -/
theorem metric_program_builds {s : Strictness} {program : String}
    (metric : ∀ b ∈ Pass.blocksOf (Program.items s program), b.command ∉ ["G20", "G91", "M83"]) :
    (∀ policy n quantity,
      .error (.notFinite n quantity) ∉ (Pass.ofProgram program ⟨s, policy⟩).outcomes) ∧
    ∀ drawing, ∃ t, ofProgram program ⟨s, .bestEffort⟩ drawing = .ok t := by
  have mild (policy : ErrorPolicy) :
      ∀ fault ∈ faultsOf (Pass.ofProgram program ⟨s, policy⟩).outcomes, fault.isFatal = false := by
    rw [Pass.outcomes_ofProgram]
    exact Pass.mild_of_metric Machine.metric_initial (Program.stays_of_mem_items metric)
  refine ⟨fun policy n quantity mem => ?_, fun drawing => ?_⟩
  · have fatal := mild policy _ (mem_faultsOf.mpr mem)
    cases fatal
  · exact ofProgram_bestEffort_ok drawing (mild .bestEffort)

/-- The ends of the doubles, a literal beyond them, an unknown command and the modes
in which a machine already is. -/
theorem metric_program_builds_of_great_numbers :
    let program := "G92 E-1.7e308\nG21\nG1 X1e308 E1.7e308 F9e307\nG91X\nG90 X1e999\nG0 X-1e308"
    (∀ b ∈ Pass.blocksOf (Program.items .lenient program), b.command ∉ ["G20", "G91", "M83"]) ∧
      ∃ t, ofProgram program ⟨.lenient, .bestEffort⟩ {} = .ok t := by
  intro program
  have metric : ∀ b ∈ Pass.blocksOf (Program.items .lenient program),
      b.command ∉ ["G20", "G91", "M83"] := by
    decide +kernel
  exact ⟨metric, (metric_program_builds metric).2 {}⟩

end Toolpath

end PrintPath
