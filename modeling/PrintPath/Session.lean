import PrintPath.Settings.File
import PrintPath.Toolpath.Build
import PrintPath.Toolpath.Summary

/-!
# Sessions

A session loads settings, reads a program file with them and summarizes its
toolpath. What goes wrong is told from the outside in: the task that failed
first, then its cause.
-/

namespace PrintPath.Session

open Files (FileError Reader)

/-- The task that failed. -/
inductive Failure where
  | settings (path : String) (cause : Settings.Problem)
  | openProgram (path : String) (cause : FileError)
  | interpret (path : String) (cause : Toolpath.ReadFault)
  /-- A log was installed before. -/
  | installLog (json : Bool)

/-- The task, without its cause. -/
def Failure.message : Failure → String
  | .settings path _ => s!"Failed to load config {path}"
  | .openProgram path _ => s!"Failed to read G-code file {path}"
  | .interpret path _ => s!"Failed to interpret {path}"
  | .installLog true => "Failed to install JSON log subscriber"
  | .installLog false => "Failed to install log subscriber"

/-- The reasons behind the task, from the outside in. -/
def Failure.causes : Failure → List String
  | .settings _ problem => [problem.message]
  | .openProgram _ cause => [cause.message]
  | .interpret _ fault => [fault.message]
  | .installLog _ => []

/-- The settings of a file, or the standard ones without a file. -/
def loadSettings (read : Reader) : Option String → Except Failure Settings × List Note
  | none => (.ok {}, [])
  | some path =>
    match Settings.load read path with
    | .ok s => (.ok s, [.settingsLoaded path])
    | .error problem => (.error (.settings path problem), [])

/-- Installs a second log, which fails for one reason or another. -/
def installSecondLog (o : LogOptions) : Except Settings.Problem Failure :=
  (Settings.severity { log := o }).map fun _ => .installLog o.json

/-- The toolpath of a program file. -/
def loadToolpath (read : Reader) (path : String) (s : Settings) :
    Except Failure Toolpath × List Note :=
  let opened := Note.fileOpened path s.reading
  match read path with
  | .error (.atOpen cause) => (.error (.openProgram path cause), [])
  | .error (.atRead cause) => (.error (.interpret path (.file cause)), [opened])
  | .ok bytes =>
    match String.fromUTF8? bytes with
    | none => (.error (.interpret path (.file .notText)), [opened])
    | some program =>
      let (result, notes) := Toolpath.report program s.reading s.drawing
      (result.mapError fun fault => .interpret path (.program fault), opened :: notes)

/-- Loads a program file and summarizes its toolpath. -/
def run (read : Reader) (path : String) (s : Settings) : Except Failure Toolpath × List Note :=
  match loadToolpath read path s with
  | (.ok t, notes) => (.ok t, notes ++ (t.summary path).map .summaryLine)
  | (.error failure, notes) => (.error failure, notes)

end PrintPath.Session
