import PrintPath.Toolpath.Build

/-!
# Keeping the last toolpath

A cache keeps one toolpath with the digest of the inputs that it was built from,
and builds again only if a request has another digest. A build that fails takes
the toolpath away and leaves the old digest behind, so a digest counts only while
there is a toolpath.

Every function takes the digest as an instance. Two inputs of the same digest are
the same to a cache.
-/

namespace PrintPath

/-- What a toolpath is built from. -/
structure BuildInputs where
  program : String
  reading : ReadingOptions
  drawing : DrawingOptions
deriving DecidableEq, Hashable

structure BuildCache where
  /-- The digest of the last inputs from which a toolpath was built. -/
  digest : UInt64 := 0
  toolpath? : Option Toolpath := none
  /-- The number of toolpaths that were built. -/
  builds : Nat := 0

namespace BuildCache

/-- A cache that has seen no request. -/
def empty : BuildCache := {}

section Requests

variable [Hashable BuildInputs]

/-- Whether a request for these inputs has to build. -/
def needsUpdate (c : BuildCache) (inputs : BuildInputs) : Bool :=
  c.toolpath?.isNone || c.digest != hash inputs

/-- Builds, whatever is kept. -/
def rebuild (c : BuildCache) (inputs : BuildInputs) : Except Fault Toolpath × BuildCache :=
  match Toolpath.ofProgram inputs.program inputs.reading inputs.drawing with
  | .ok toolpath => (.ok toolpath, ⟨hash inputs, some toolpath, c.builds + 1⟩)
  | .error fault => (.error fault, { c with toolpath? := none })

/-- The toolpath of some inputs, and the cache after the request. -/
def get (c : BuildCache) (inputs : BuildInputs) : Except Fault Toolpath × BuildCache :=
  match c.toolpath? with
  | some kept => if c.digest = hash inputs then (.ok kept, c) else c.rebuild inputs
  | none => c.rebuild inputs

/-- What is noted on a request. -/
def notes (c : BuildCache) (inputs : BuildInputs) : List Note :=
  if c.needsUpdate inputs then
    .toolpathRequested (hash inputs) ::
      (Toolpath.report inputs.program inputs.reading inputs.drawing).2
  else [.toolpathReused]

end Requests

/-- Forgets the toolpath and its digest, but not the number of builds. -/
def invalidate (c : BuildCache) : BuildCache :=
  { c with digest := 0, toolpath? := none }

end BuildCache

end PrintPath
