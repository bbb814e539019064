import PrintPath.Document.Sections
import PrintPath.Log.Severity
import PrintPath.Policy

/-!
# Settings

The choices of a user: how programs are read, what is drawn and what is
logged. The level of the log is kept as the user wrote it; settings are valid
if it names a severity.
-/

namespace PrintPath

structure LogOptions where
  /-- The least severity that is logged, as a name or a number. -/
  level : String := "info"
  /-- Whether the log is written as JSON. -/
  json : Bool := false
deriving DecidableEq, Repr, Inhabited

structure Settings where
  reading : ReadingOptions := default
  drawing : DrawingOptions := default
  log : LogOptions := {}
deriving DecidableEq, Repr

instance : Inhabited Settings := ⟨{}⟩

def LogOptions.severity? (o : LogOptions) : Option Severity :=
  Severity.read (Text.trim o.level.toList)

namespace Settings

/-- The settings as they stand in a file. -/
def toSections (s : Settings) : Sections :=
  [("interpreter",
    [("strictness", .text s.reading.strictness.name),
     ("error_policy", .text s.reading.errorPolicy.name)]),
   ("toolpath",
    [("include_travel", .flag s.drawing.includeTravel),
     ("skip_degenerate", .flag s.drawing.skipDegenerate)]),
   ("logging",
    [("level", .text s.log.level),
     ("json", .flag s.log.json)])]

end Settings

end PrintPath
