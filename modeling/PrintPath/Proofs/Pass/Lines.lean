import PrintPath.Proofs.Machine.Effect
import PrintPath.Proofs.Pass.Policy
import PrintPath.Proofs.Program.Lines

/-!
# The lines that a run reports on

A run over numbered lines reports on each of them at most once, in their order:
what a line gives carries the number of that line.
-/

namespace PrintPath

/-- The line that an outcome is about. -/
def outcomeLine : Outcome → Nat
  | .ok move => move.line
  | .error fault => fault.line

theorem Item.line_of_run_fault {item : Item} {m : Machine} {fault : Fault}
    (h : item.run m = .error fault) : fault.line = readingLine item.result := by
  rcases run_eq_error_iff.mp h with refused | ⟨b, read, step⟩
  · rw [refused]
    rfl
  · rw [read]
    exact Machine.line_of_step_error step

theorem Item.line_of_run_move {item : Item} {m m' : Machine} {move : Move}
    (h : item.run m = .ok (m', some move)) : move.line = readingLine item.result := by
  obtain ⟨b, read, step⟩ := run_eq_ok_iff.mp h
  rw [read]
  exact Machine.line_of_step_move step

namespace Pass

open Program

/-- Induction along a run over numbered lines: a line is blank, or its item
fails, moves, or is silent. What an item reports is about its line. -/
theorem lines_induction {s : Strictness} {motive : Machine → List (List Char × Nat) → Prop}
    (nil : ∀ m, motive m [])
    (blank : ∀ m line n rest, Item.ofLine? s n line = none → motive m rest →
      motive m ((line, n) :: rest))
    (fault : ∀ m line n rest item fault, Item.ofLine? s n line = some item →
      item.run m = .error fault → fault.line = n → motive m rest →
      motive m ((line, n) :: rest))
    (move : ∀ m line n rest item m' move, Item.ofLine? s n line = some item →
      item.run m = .ok (m', some move) → move.line = n → motive m' rest →
      motive m ((line, n) :: rest))
    (silence : ∀ m line n rest item m', Item.ofLine? s n line = some item →
      item.run m = .ok (m', none) → motive m' rest →
      motive m ((line, n) :: rest))
    (m : Machine) (ls : List (List Char × Nat)) : motive m ls := by
  induction ls generalizing m with
  | nil => exact nil m
  | cons l rest ih =>
      obtain ⟨line, n⟩ := l
      cases given : Item.ofLine? s n line with
      | none => exact blank m line n rest given (ih m)
      | some item =>
          have number := Item.readingLine_of_ofLine? given
          cases h : item.run m with
          | error fault' =>
              have about := (Item.line_of_run_fault h).trans number
              exact fault m line n rest item fault' given h about (ih m)
          | ok r =>
              obtain ⟨m', report⟩ := r
              cases report with
              | none => exact silence m line n rest item m' given h (ih m')
              | some move' =>
                  have about := (Item.line_of_run_move h).trans number
                  exact move m line n rest item m' move' given h about (ih m')

/-- A run reports on some of its lines, on none twice and in their order. -/
theorem outcomeLines_sublist (policy : ErrorPolicy) (s : Strictness) (m : Machine)
    (ls : List (List Char × Nat)) :
    ((outcomesOf policy m (itemsOn s ls)).map outcomeLine).Sublist (ls.map Prod.snd) := by
  induction m, ls using lines_induction (s := s) with
  | nil m => exact List.Sublist.slnil
  | blank m line n rest given ih =>
      rw [itemsOn_of_blank given]
      exact ih.cons n
  | fault m line n rest item fault given h about ih =>
      rw [itemsOn_of_item given]
      by_cases last : ends policy fault = true
      · rw [outcomesOf_of_ends h last]
        show [fault.line].Sublist _
        rw [about]
        exact (List.nil_sublist _).cons_cons n
      · rw [outcomesOf_of_not_ends h last]
        show (fault.line :: _).Sublist _
        rw [about]
        exact ih.cons_cons n
  | move m line n rest item m' move given h about ih =>
      rw [itemsOn_of_item given, outcomesOf_of_move h, List.map_cons, List.map_cons]
      show (move.line :: _).Sublist _
      rw [about]
      exact ih.cons_cons n
  | silence m line n rest item m' given h ih =>
      rw [itemsOn_of_item given, outcomesOf_of_silence h]
      exact ih.cons n

end Pass

end PrintPath
