import PrintPath.Settings.Basic

/-!
# Settings in a document

What is missing in a document has its default, what is unknown does not
count, and what is there has to fit.
-/

namespace PrintPath

open Document (Convention)

def Strictness.ofDocument? (c : Convention) : Document → Option Strictness :=
  Document.choice c [.strict, .lenient] Strictness.name

def ErrorPolicy.ofDocument? (c : Convention) : Document → Option ErrorPolicy :=
  Document.choice c [.abort, .bestEffort] ErrorPolicy.name

/-- A field that may be missing. -/
def fieldOr {α : Type} (read : Document → Option α) (d : α) : Option Document → Option α
  | none => some d
  | some doc => read doc

def readingOfSection? (c : Convention) (d : Document) : Option ReadingOptions := do
  match ← d.fields c ["strictness", "error_policy"] with
  | [strictness, policy] =>
    some { strictness := ← fieldOr (Strictness.ofDocument? c) default strictness
           errorPolicy := ← fieldOr (ErrorPolicy.ofDocument? c) default policy }
  | _ => none

def drawingOfSection? (c : Convention) (d : Document) : Option DrawingOptions := do
  match ← d.fields c ["include_travel", "skip_degenerate"] with
  | [travel, degenerate] =>
    some { includeTravel := ← fieldOr Document.bool? true travel
           skipDegenerate := ← fieldOr Document.bool? true degenerate }
  | _ => none

def logOfSection? (c : Convention) (d : Document) : Option LogOptions := do
  let standard : LogOptions := {}
  match ← d.fields c ["level", "json"] with
  | [level, json] =>
    some { level := ← fieldOr Document.text? standard.level level
           json := ← fieldOr Document.bool? standard.json json }
  | _ => none

def Settings.ofDocument? (c : Convention) (d : Document) : Option Settings := do
  match ← d.fields c ["interpreter", "toolpath", "logging"] with
  | [reading, drawing, log] =>
    some { reading := ← fieldOr (readingOfSection? c) default reading
           drawing := ← fieldOr (drawingOfSection? c) default drawing
           log := ← fieldOr (logOfSection? c) {} log }
  | _ => none

end PrintPath
