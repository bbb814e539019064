/-!
# Policies

How a program is read, and which of its moves are drawn. The caller chooses;
the names are those of the settings files.
-/

namespace PrintPath

/-- What becomes of an argument that cannot be read. -/
inductive Strictness where
  /-- The whole line is an error. -/
  | strict
  /-- The argument is dropped and the rest of the line kept. -/
  | lenient
deriving DecidableEq, Repr, Inhabited, Hashable

/-- What becomes of the run after an error. -/
inductive ErrorPolicy where
  /-- The first error ends it. -/
  | abort
  /-- Only a fatal error ends it. -/
  | bestEffort
deriving DecidableEq, Repr, Hashable

instance : Inhabited ErrorPolicy := ⟨.bestEffort⟩

def Strictness.name : Strictness → String
  | .strict => "strict"
  | .lenient => "lenient"

def ErrorPolicy.name : ErrorPolicy → String
  | .abort => "abort"
  | .bestEffort => "best_effort"

/-- How a program is read. -/
structure ReadingOptions where
  strictness : Strictness := default
  errorPolicy : ErrorPolicy := default
deriving DecidableEq, Repr, Inhabited, Hashable

/-- Which moves become segments. -/
structure DrawingOptions where
  /-- Keep moves that do not extrude. -/
  includeTravel : Bool := true
  /-- Drop moves that stay in place. -/
  skipDegenerate : Bool := true
deriving DecidableEq, Repr, Hashable

instance : Inhabited DrawingOptions := ⟨{}⟩

end PrintPath
