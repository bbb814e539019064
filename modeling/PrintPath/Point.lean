import PrintPath.Axis
import PrintPath.Number.Text

/-!
# Points

A position of the tool in millimetres. Comparison is that of the coordinates
as numbers: the two zeros are one position, and a point with an undefined
coordinate equals no point.
-/

namespace PrintPath

structure Point where
  x : Float
  y : Float
  z : Float
deriving DecidableEq, Repr

namespace Point

/-- Where a machine starts. -/
def origin : Point :=
  ⟨0, 0, 0⟩

/-- Overwrites one coordinate. The extruder has none. -/
def set (p : Point) : Axis → Float → Point
  | .x, v => { p with x := v }
  | .y, v => { p with y := v }
  | .z, v => { p with z := v }
  | .e, _ => p

def distance (p q : Point) : Float :=
  let dx := q.x - p.x
  let dy := q.y - p.y
  let dz := q.z - p.z
  (dx * dx + dy * dy + dz * dz).sqrt

def midpoint (p q : Point) : Point :=
  ⟨(p.x + q.x) / 2, (p.y + q.y) / 2, (p.z + q.z) / 2⟩

def isFinite (p : Point) : Bool :=
  p.x.isFinite && p.y.isFinite && p.z.isFinite

/-- Whether two points are one position. -/
def samePlace (p q : Point) : Bool :=
  p.x == q.x && p.y == q.y && p.z == q.z

/-- The coordinates in parentheses, with three places each. -/
def text (p : Point) : String :=
  let part (v : Float) := String.ofList (Number.fixed 3 v)
  s!"({part p.x}, {part p.y}, {part p.z})"

end Point

end PrintPath
