import PrintPath.Document.Basic

/-!
# Sections

The shape of a settings file, whatever its format: named sections of named
flags and texts.
-/

namespace PrintPath

inductive Scalar where
  | flag (b : Bool)
  | text (s : String)
deriving DecidableEq, Repr

def Scalar.toDocument : Scalar → Document
  | flag b => .bool b
  | text s => .text s

abbrev Section := List (String × Scalar)

abbrev Sections := List (String × Section)

def Section.toDocument (s : Section) : Document :=
  .table (s.map fun (name, v) => (name, v.toDocument))

def Sections.toDocument (ss : Sections) : Document :=
  .table (ss.map fun (name, s) => (name, Section.toDocument s))

end PrintPath
