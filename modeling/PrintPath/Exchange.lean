import PrintPath.Block.Basic
import PrintPath.Json.Reader
import PrintPath.Machine.Basic
import PrintPath.Settings.Document
import PrintPath.Toolpath.Box
import PrintPath.Toolpath.Totals

/-!
# Exchanged values

The JSON form of the library's values, for programs that pass them on. A
structure is an object, or an array of its fields in order, and has all its
fields. A reader gives `none` for a document of any other form.
-/

namespace PrintPath

namespace Document

/-- A number. Whole numbers are rounded if they have to be. -/
def number? : Document → Option Float
  | integer i => some (Number.nearestInt i)
  | float x => some x
  | _ => none

/-- A natural number. -/
def count? : Document → Option Nat
  | integer i => i.toNat?
  | _ => none

def ofCount (n : Nat) : Document :=
  .integer n

end Document

namespace Exchange

open Document (ofCount)

def fields (names : List String) (d : Document) : Option (List Document) :=
  d.allFields Json.convention names

def readChoice {α : Type} (all : List α) (name : α → String) (d : Document) : Option α :=
  d.choice Json.convention all name

/-! ## Modes and options -/

def axisName : Axis → String
  | .x => "X"
  | .y => "Y"
  | .z => "Z"
  | .e => "E"

def unitName : LengthUnit → String
  | .millimeters => "millimeters"
  | .inches => "inches"

def positioningName : Positioning → String
  | .absolute => "absolute"
  | .relative => "relative"

def readAxis : Document → Option Axis :=
  readChoice Axis.all axisName

def readUnit : Document → Option LengthUnit :=
  readChoice [.millimeters, .inches] unitName

def readPositioning : Document → Option Positioning :=
  readChoice [.absolute, .relative] positioningName

def readKind : Document → Option SegmentKind :=
  readChoice [.extrusion, .travel, .retraction] SegmentKind.name

def readReading (d : Document) : Option ReadingOptions := do
  match ← fields ["strictness", "error_policy"] d with
  | [strictness, policy] =>
    some ⟨← Strictness.ofDocument? Json.convention strictness,
      ← ErrorPolicy.ofDocument? Json.convention policy⟩
  | _ => none

def writeReading (o : ReadingOptions) : Document :=
  .table [("strictness", .text o.strictness.name), ("error_policy", .text o.errorPolicy.name)]

def readDrawing (d : Document) : Option DrawingOptions := do
  match ← fields ["include_travel", "skip_degenerate"] d with
  | [travel, degenerate] => some ⟨← travel.bool?, ← degenerate.bool?⟩
  | _ => none

def writeDrawing (o : DrawingOptions) : Document :=
  .table [("include_travel", .bool o.includeTravel), ("skip_degenerate", .bool o.skipDegenerate)]

/-! ## Points, blocks and machines -/

def readPoint (d : Document) : Option Point := do
  match ← fields ["x", "y", "z"] d with
  | [x, y, z] => some ⟨← x.number?, ← y.number?, ← z.number?⟩
  | _ => none

def writePoint (p : Point) : Document :=
  .table [("x", .float p.x), ("y", .float p.y), ("z", .float p.z)]

/-- Arguments by their letters, in the case in which they are given. -/
def readArguments : Document → Option Arguments
  | .table members =>
    members.foldlM (fun args (name, d) =>
      match name.toList with
      | [letter] => d.number?.map (args.insert letter)
      | _ => none) .empty
  | _ => none

def writeArguments (args : Arguments) : Document :=
  .table (args.entries.map fun (letter, v) => (letter.toString, .float v))

def readBlock (d : Document) : Option Block := do
  match ← fields ["command", "arguments", "line_number"] d with
  | [command, arguments, line] =>
    some ⟨← command.text?, ← readArguments arguments, ← line.count?⟩
  | _ => none

def writeBlock (b : Block) : Document :=
  .table [("command", .text b.command), ("arguments", writeArguments b.arguments),
    ("line_number", ofCount b.line)]

def readMachine (d : Document) : Option Machine := do
  match ← fields ["position", "extruded_length", "feed_rate", "positioning_mode",
      "extrusion_mode", "unit_system"] d with
  | [position, extruded, feedRate, positioning, extrusion, unit] =>
    some ⟨← readPoint position, ← extruded.number?, ← feedRate.number?,
      ← readPositioning positioning, ← readPositioning extrusion, ← readUnit unit⟩
  | _ => none

def writeMachine (m : Machine) : Document :=
  .table [("position", writePoint m.position), ("extruded_length", .float m.extruded),
    ("feed_rate", .float m.feedRate),
    ("positioning_mode", .text (positioningName m.positioning)),
    ("extrusion_mode", .text (positioningName m.extrusion)),
    ("unit_system", .text (unitName m.unit))]

/-! ## Moves and what is drawn of them -/

def readMove (d : Document) : Option Move := do
  match ← fields ["from", "to", "extruding", "extrusion", "feed_rate", "rapid",
      "line_number"] d with
  | [start, finish, extruding, extrusion, feedRate, rapid, line] =>
    some ⟨← readPoint start, ← readPoint finish, ← extruding.bool?, ← extrusion.number?,
      ← feedRate.number?, ← rapid.bool?, ← line.count?⟩
  | _ => none

def writeMove (m : Move) : Document :=
  .table [("from", writePoint m.start), ("to", writePoint m.finish),
    ("extruding", .bool m.extruding), ("extrusion", .float m.extrusion),
    ("feed_rate", .float m.feedRate), ("rapid", .bool m.rapid),
    ("line_number", ofCount m.line)]

def readSegment (d : Document) : Option Segment := do
  match ← fields ["from", "to", "kind", "line_number"] d with
  | [start, finish, kind, line] =>
    some ⟨← readPoint start, ← readPoint finish, ← readKind kind, ← line.count?⟩
  | _ => none

def writeSegment (s : Segment) : Document :=
  .table [("from", writePoint s.start), ("to", writePoint s.finish),
    ("kind", .text s.kind.name), ("line_number", ofCount s.line)]

def readBox (d : Document) : Option Box := do
  match ← fields ["min_x", "max_x", "min_y", "max_y", "min_z", "max_z"] d with
  | [lx, hx, ly, hy, lz, hz] =>
    some ⟨⟨← lx.number?, ← ly.number?, ← lz.number?⟩,
      ⟨← hx.number?, ← hy.number?, ← hz.number?⟩⟩
  | _ => none

def writeBox (b : Box) : Document :=
  .table [("min_x", .float b.low.x), ("max_x", .float b.high.x), ("min_y", .float b.low.y),
    ("max_y", .float b.high.y), ("min_z", .float b.low.z), ("max_z", .float b.high.z)]

def totalsFields : List String :=
  ["move_count", "extrusion_moves", "travel_moves", "retraction_moves", "filament_used",
   "filament_retracted", "extrusion_distance", "travel_distance", "layer_count"]

def readTotals (d : Document) : Option Totals := do
  match ← fields totalsFields d with
  | [moves, extrusions, travels, retractions, used, retracted, extrusionDistance,
      travelDistance, layers] =>
    some ⟨← moves.count?, ← extrusions.count?, ← travels.count?, ← retractions.count?,
      ← used.number?, ← retracted.number?, ← extrusionDistance.number?,
      ← travelDistance.number?, ← layers.count?⟩
  | _ => none

def writeTotals (t : Totals) : Document :=
  .table (totalsFields.zip
    [ofCount t.moves, ofCount t.extrusionMoves, ofCount t.travelMoves,
     ofCount t.retractionMoves, .float t.filamentUsed, .float t.filamentRetracted,
     .float t.extrusionDistance, .float t.travelDistance, ofCount t.layers])

end Exchange

end PrintPath
