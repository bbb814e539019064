import PrintPath.Machine.Basic
import PrintPath.Policy
import PrintPath.Toolpath.Box
import PrintPath.Toolpath.Layers
import PrintPath.Toolpath.Totals

/-!
# Toolpaths

What a renderer draws: the segments of a program with their box, layers and
totals. Moves are added one by one, and the drawing options decide which of
them become segments.
-/

namespace PrintPath

structure Toolpath where
  options : DrawingOptions
  segments : Array Segment := #[]
  box : Box := .empty
  totals : Totals := {}
  layers : Layers := .empty
  /-- Faults that were passed over while the toolpath was built. -/
  diagnostics : Array Fault := #[]
  /-- The machine at the end of the program, if there was one. -/
  finalMachine : Option Machine := none
deriving DecidableEq

namespace Toolpath

/-- A toolpath without moves. -/
def empty (options : DrawingOptions) : Toolpath :=
  { options := options }

/-- Whether a move becomes a segment. -/
def draws (options : DrawingOptions) (m : Move) : Bool :=
  !(options.skipDegenerate && m.isStationary) && (options.includeTravel || m.extruding)

/-- Whether a move puts material on its layer. -/
def deposits (m : Move) : Bool :=
  m.extruding && !m.isStationary

/-- Adds the layer of a move that deposits material. -/
def addLayer (t : Toolpath) (m : Move) : Toolpath :=
  if deposits m then
    let layers := t.layers.insert m.finish.z
    { t with layers := layers, totals := { t.totals with layers := layers.size } }
  else t

/-- Adds the segment of a move. -/
def addSegment (t : Toolpath) (m : Move) : Toolpath :=
  { t with
    segments := t.segments.push (.ofMove m)
    box := (t.box.insert m.start).insert m.finish }

/-- Adds a move. -/
def push (t : Toolpath) (m : Move) : Toolpath :=
  let t := { t with totals := t.totals.add m }
  if draws t.options m then (t.addLayer m).addSegment m else t

def ofMoves (options : DrawingOptions) (moves : List Move) : Toolpath :=
  moves.foldl push (empty options)

def size (t : Toolpath) : Nat :=
  t.segments.size

def isEmpty (t : Toolpath) : Bool :=
  t.segments.isEmpty

def extrusionSegments (t : Toolpath) : List Segment :=
  t.segments.toList.filter (·.isExtrusion)

def travelSegments (t : Toolpath) : List Segment :=
  t.segments.toList.filter (!·.isExtrusion)

/-- The centre of what is drawn. -/
def center? (t : Toolpath) : Option Point :=
  t.box.center?

def layerHeights (t : Toolpath) : List Float :=
  t.layers.heights

end Toolpath

end PrintPath
