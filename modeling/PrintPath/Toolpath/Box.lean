import PrintPath.Point

/-!
# Boxes

The box around a set of points, grown point by point. An empty box has its
corners the wrong way round, so that the first point replaces them. A
coordinate that is not a number does not count. The two zeros are equal, and
of equal coordinates the last one stays.
-/

namespace PrintPath

/-- The greatest finite double. -/
def greatestFloat : Float :=
  Float.ofBits 0x7fefffffffffffff

/-- The smaller of two numbers, the second one if they are equal. An undefined
one gives way. -/
def lesser (a b : Float) : Float :=
  if a < b ∨ b.isNaN then a else b

/-- The greater of two numbers, the second one if they are equal. An undefined
one gives way. -/
def greater (a b : Float) : Float :=
  if b < a ∨ b.isNaN then a else b

structure Box where
  low : Point
  high : Point
deriving DecidableEq, Repr

namespace Box

def empty : Box :=
  ⟨⟨greatestFloat, greatestFloat, greatestFloat⟩,
   ⟨-greatestFloat, -greatestFloat, -greatestFloat⟩⟩

/-- The box with one more point in it. -/
def insert (b : Box) (p : Point) : Box :=
  ⟨⟨lesser b.low.x p.x, lesser b.low.y p.y, lesser b.low.z p.z⟩,
   ⟨greater b.high.x p.x, greater b.high.y p.y, greater b.high.z p.z⟩⟩

/-- Whether the corners are the right way round. A flat box is valid. -/
def isValid (b : Box) : Bool :=
  b.low.x ≤ b.high.x && b.low.y ≤ b.high.y && b.low.z ≤ b.high.z

def low? (b : Box) : Option Point :=
  if b.isValid then some b.low else none

def high? (b : Box) : Option Point :=
  if b.isValid then some b.high else none

/-- The lengths of the edges. -/
def size? (b : Box) : Option Point :=
  if b.isValid then
    some ⟨b.high.x - b.low.x, b.high.y - b.low.y, b.high.z - b.low.z⟩
  else none

def center? (b : Box) : Option Point :=
  if b.isValid then some (b.low.midpoint b.high) else none

end Box

end PrintPath
