/-!
# Axes

The four axes that a block can address: three in space, and the length of
filament that the extruder has pushed.
-/

namespace PrintPath

inductive Axis where
  | x
  | y
  | z
  | e
deriving DecidableEq, Repr

/-- The axes in the order in which a block's arguments are applied. -/
def Axis.all : List Axis :=
  [.x, .y, .z, .e]

/-- The argument letter of an axis. -/
def Axis.letter : Axis → Char
  | .x => 'x'
  | .y => 'y'
  | .z => 'z'
  | .e => 'e'

theorem Axis.mem_all (a : Axis) : a ∈ Axis.all := by
  cases a <;> simp [Axis.all]

end PrintPath
