import PrintPath.Toolpath.Segment

/-!
# Totals

Counts and sums over the moves of a program. Every move counts, whether it is
drawn or not; only the number of layers follows what is drawn.
-/

namespace PrintPath

structure Totals where
  moves : Nat := 0
  extrusionMoves : Nat := 0
  travelMoves : Nat := 0
  retractionMoves : Nat := 0
  filamentUsed : Float := 0
  filamentRetracted : Float := 0
  extrusionDistance : Float := 0
  travelDistance : Float := 0
  layers : Nat := 0
deriving DecidableEq, Repr

namespace Totals

/-- The totals with one more move. -/
def add (t : Totals) (m : Move) : Totals :=
  let t := { t with moves := t.moves + 1 }
  match m.kind with
  | .extrusion =>
    { t with
      extrusionMoves := t.extrusionMoves + 1
      filamentUsed := t.filamentUsed + m.extrusion
      extrusionDistance := t.extrusionDistance + m.length }
  | .travel =>
    { t with
      travelMoves := t.travelMoves + 1
      travelDistance := t.travelDistance + m.length }
  | .retraction =>
    { t with
      retractionMoves := t.retractionMoves + 1
      filamentRetracted := t.filamentRetracted - m.extrusion
      travelDistance := t.travelDistance + m.length }

def distance (t : Totals) : Float :=
  t.extrusionDistance + t.travelDistance

end Totals

end PrintPath
