import Mathlib.Data.List.Induction
import PrintPath.Proofs.Machine.Effect

/-!
# Runs of blocks

A run goes through a list of blocks and passes over those that are refused. It
has an end and a list of moves.
-/

namespace PrintPath.Machine

/-- The machine after a list of blocks. -/
def run (m : Machine) (bs : List Block) : Machine :=
  bs.foldl after m

/-- The moves that a list of blocks makes. -/
def moves (m : Machine) : List Block → List Move
  | [] => []
  | b :: bs =>
    match m.step b with
    | .ok (m', move) => move.toList ++ moves m' bs
    | .error _ => moves m bs

theorem run_cons (m : Machine) (b : Block) (bs : List Block) :
    m.run (b :: bs) = (m.after b).run bs := rfl

theorem run_append (m : Machine) (bs cs : List Block) :
    m.run (bs ++ cs) = (m.run bs).run cs :=
  List.foldl_append

theorem run_snoc (m : Machine) (bs : List Block) (b : Block) :
    m.run (bs ++ [b]) = (m.run bs).after b :=
  run_append m bs [b]

theorem run_cons_of_ok {m : Machine} {b : Block} {r : Machine × Option Move}
    (h : m.step b = .ok r) (bs : List Block) : m.run (b :: bs) = r.1.run bs := by
  rw [run_cons, after_of_ok h]

theorem run_cons_of_error {m : Machine} {b : Block} {fault : Fault}
    (h : m.step b = .error fault) (bs : List Block) : m.run (b :: bs) = m.run bs := by
  rw [run_cons, after_of_error h]

theorem moves_cons_of_ok {m : Machine} {b : Block} {r : Machine × Option Move}
    (h : m.step b = .ok r) (bs : List Block) :
    m.moves (b :: bs) = r.2.toList ++ r.1.moves bs := by
  simp [moves, h]

theorem moves_cons_of_error {m : Machine} {b : Block} {fault : Fault}
    (h : m.step b = .error fault) (bs : List Block) : m.moves (b :: bs) = m.moves bs := by
  simp [moves, h]

/-- What every step preserves holds at the end of every run. -/
theorem run_induction {motive : Machine → Prop} {m : Machine} (start : motive m)
    (step : ∀ m b, motive m → motive (m.after b)) (bs : List Block) : motive (m.run bs) := by
  induction bs using List.reverseRecOn with
  | nil => exact start
  | append_singleton bs b ih =>
      rw [run_snoc]
      exact step _ b ih

end PrintPath.Machine
