import PrintPath.Number.Binary64

/-!
# Layers

Heights are grouped on a grid of a ten-thousandth of a millimetre. A layer is
known by its number on the grid, a signed 64 bit integer; heights beyond
those share the outermost ones. The set of layers is a list that ascends.
-/

namespace PrintPath

/-- The distance of two layers at least, in millimetres. -/
def layerResolution : Float :=
  1e-4

/-- The layer at a height: the nearest one on the grid, a half away from
zero. -/
def layerAt (z : Float) : Int :=
  match Number.parts (z / layerResolution) with
  | .nan => 0
  | .infinity negative => if negative then Number.leastInt64 else Number.greatestInt64
  | .finite negative m q =>
    let steps : Int := Number.wholeNearest m q
    if negative then max Number.leastInt64 (-steps) else min Number.greatestInt64 steps

/-- The height of a layer in millimetres. -/
def layerHeight (layer : Int) : Float :=
  Number.nearestInt layer * layerResolution

/-- Puts a number into an ascending list, unless it is there. -/
def insertAscending (k : Int) : List Int → List Int
  | [] => [k]
  | i :: rest =>
    if k < i then k :: i :: rest
    else if k = i then i :: rest
    else i :: insertAscending k rest

theorem mem_insertAscending {k i : Int} {keys : List Int} :
    i ∈ insertAscending k keys ↔ i = k ∨ i ∈ keys := by
  induction keys with
  | nil => simp [insertAscending]
  | cons first rest ih =>
    simp only [insertAscending]
    split
    · simp
    · split
      · next eq =>
        subst eq
        simp
      · simp only [List.mem_cons, ih]
        exact or_left_comm

theorem ascending_insertAscending (k : Int) {keys : List Int}
    (h : keys.Pairwise (· < ·)) : (insertAscending k keys).Pairwise (· < ·) := by
  induction keys with
  | nil => simp [insertAscending]
  | cons first rest ih =>
    rw [List.pairwise_cons] at h
    obtain ⟨below, ascending⟩ := h
    simp only [insertAscending]
    split
    · next lt =>
      refine List.pairwise_cons.2 ⟨fun i hi => ?_, List.pairwise_cons.2 ⟨below, ascending⟩⟩
      rcases List.mem_cons.1 hi with rfl | hi
      · exact lt
      · exact Int.lt_trans lt (below i hi)
    · split
      · exact List.pairwise_cons.2 ⟨below, ascending⟩
      · refine List.pairwise_cons.2 ⟨fun i hi => ?_, ih ascending⟩
        rcases mem_insertAscending.1 hi with rfl | hi
        · omega
        · exact below i hi

structure Layers where
  keys : List Int
  ascending : keys.Pairwise (· < ·)
deriving DecidableEq

namespace Layers

def empty : Layers :=
  ⟨[], List.Pairwise.nil⟩

/-- Adds the layer at a height. -/
def insert (l : Layers) (z : Float) : Layers :=
  ⟨insertAscending (layerAt z) l.keys, ascending_insertAscending (layerAt z) l.ascending⟩

def size (l : Layers) : Nat :=
  l.keys.length

/-- The heights of the layers, from the lowest. -/
def heights (l : Layers) : List Float :=
  l.keys.map layerHeight

end Layers

end PrintPath
