import PrintPath.Point

/-!
# Moves

One straight move of the tool. It starts where the machine stood before the
block.
-/

namespace PrintPath

structure Move where
  start : Point
  finish : Point
  /-- Whether filament was pushed out. -/
  extruding : Bool
  /-- The signed change of the extruder's axis. -/
  extrusion : Float
  /-- The feed rate in effect after the move. -/
  feedRate : Float
  rapid : Bool
  line : Nat
deriving DecidableEq, Repr

namespace Move

def length (m : Move) : Float :=
  m.start.distance m.finish

/-- Whether the tool stayed in place. -/
def isStationary (m : Move) : Bool :=
  m.start.samePlace m.finish

/-- Whether filament was pulled back. -/
def isRetraction (m : Move) : Bool :=
  m.extrusion < 0

end Move

end PrintPath
