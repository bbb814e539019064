import PrintPath.Toolpath.Basic

/-!
# Summaries

A toolpath in a few lines for a reader: what is drawn, the totals, the box,
the modes at the end, and the number of lines that were passed over.
-/

namespace PrintPath.Toolpath

/-- A length with three places. -/
def lengthText (v : Float) : String :=
  String.ofList (Number.fixed 3 v)

def boxLine (b : Box) : String :=
  match b.low?, b.high? with
  | some low, some high => s!"Bounds: {low.text} to {high.text}"
  | _, _ => "Bounds: empty"

def modesLine (m : Machine) : String :=
  "Final modes: " ++ ", ".intercalate m.modeDescriptions

def segmentsLine (name : String) (t : Toolpath) : String :=
  s!"{name}: {t.size} segments ({t.extrusionSegments.length} extrusion, " ++
    s!"{t.travelSegments.length} travel)"

def movesLine (t : Totals) : String :=
  s!"Moves: {t.moves} total, {t.extrusionMoves} extruding, {t.travelMoves} travel, " ++
    s!"{t.retractionMoves} retractions"

def filamentLine (t : Totals) : String :=
  s!"Filament: {lengthText t.filamentUsed} mm used, " ++
    s!"{lengthText t.filamentRetracted} mm retracted; " ++
    s!"distance {lengthText t.distance} mm over {t.layers} layers"

/-- There is a line on skipped lines only if there were any. -/
def skippedLines (diagnostics : Array Fault) : List String :=
  if diagnostics.isEmpty then [] else [s!"{diagnostics.size} lines skipped with errors"]

def summary (name : String) (t : Toolpath) : List String :=
  [segmentsLine name t, movesLine t.totals, filamentLine t.totals, boxLine t.box] ++
    t.finalMachine.toList.map modesLine ++ skippedLines t.diagnostics

end PrintPath.Toolpath
