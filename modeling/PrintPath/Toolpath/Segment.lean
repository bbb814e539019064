import PrintPath.Move

/-!
# Segments

A drawable piece of a toolpath. The kind of a move follows its filament:
pushed out, pulled back, or neither.
-/

namespace PrintPath

inductive SegmentKind where
  | extrusion
  | travel
  | retraction
deriving DecidableEq, Repr

/-- The name of a kind in an exchanged document. -/
def SegmentKind.name : SegmentKind → String
  | extrusion => "extrusion"
  | travel => "travel"
  | retraction => "retraction"

/-- The kind of a move. -/
def Move.kind (m : Move) : SegmentKind :=
  if m.extruding then .extrusion
  else if m.isRetraction then .retraction
  else .travel

structure Segment where
  start : Point
  finish : Point
  kind : SegmentKind
  line : Nat
deriving DecidableEq, Repr

namespace Segment

def ofMove (m : Move) : Segment :=
  ⟨m.start, m.finish, m.kind, m.line⟩

def length (s : Segment) : Float :=
  s.start.distance s.finish

def isExtrusion (s : Segment) : Bool :=
  s.kind == .extrusion

end Segment

end PrintPath
