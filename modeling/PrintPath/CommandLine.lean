import PrintPath.Log.Filter
import PrintPath.Session

/-!
# Command line

The program takes a program file and, if wanted, a settings file. It writes
its log to standard error and ends with a code: zero if all went well, one
after a failure, two if it was called the wrong way, a hundred and one if the
filter of the log is cut inside a character.
-/

namespace PrintPath.CommandLine

open Files (Reader)

/-- What the arguments ask for. -/
inductive Request where
  | help
  | wrongUsage
  | summarize (file : String) (settings : Option String)
deriving DecidableEq, Repr

/-- Whether an argument can only be an option. A lone dash is a name. -/
def isOption (argument : String) : Bool :=
  argument.toList.head? == some '-' && argument != "-"

/-- Whether an option asks for help. Short options may stand together. -/
def asksForHelp (argument : String) : Bool :=
  argument == "--help" || argument.toList.take 2 == ['-', 'h']

/-- Reads arguments from left to right, behind the names that were read so
far. After two dashes every argument is a name. -/
def readArguments (optionsOver : Bool) (found : List String) : List String → Request
  | [] =>
    match found with
    | [file] => .summarize file none
    | [file, settings] => .summarize file (some settings)
    | _ => .wrongUsage
  | argument :: rest =>
    if !optionsOver && argument == "--" then readArguments true found rest
    else if !optionsOver && asksForHelp argument then .help
    else if !optionsOver && isOption argument then .wrongUsage
    else if argument == "" || found.length == 2 then .wrongUsage
    else readArguments optionsOver (found ++ [argument]) rest

def Request.ofArguments (arguments : List String) : Request :=
  readArguments false [] arguments

/-- How a run of the program ends. -/
structure Ending where
  code : Nat
  /-- What goes to standard output. -/
  output : String := ""
  /-- What is logged. -/
  log : List Note := []
  /-- Whether the log is written as JSON. -/
  jsonLog : Bool := false
  /-- The line that tells the failure. -/
  failure : Option String := none
  /-- The reasons of the failure. -/
  causes : List String := []

def usageLine : String :=
  "Usage: gcodeview <FILE> [CONFIG]"

def helpText : String :=
  "Interpret a 3D-printer G-code file and summarize its toolpath\n\n" ++
  usageLine ++ "\n\n" ++
  "Arguments:\n" ++
  "  <FILE>    G-code file to interpret\n" ++
  "  [CONFIG]  Configuration file (.toml or .json)\n\n" ++
  "Options:\n" ++
  "  -h, --help  Print help\n"

/-- A note as a line of the log. -/
def logLine (json : Bool) (n : Note) : String :=
  let quoted (s : String) := String.ofList (Json.quote s.toList)
  if json then
    "\x7b\"level\":" ++ quoted n.severity.name ++ ",\"target\":" ++ quoted n.speaker.target ++
      ",\"message\":" ++ quoted n.message ++ "\x7d"
  else s!"{n.severity.name} {n.speaker.target}: {n.message}"

def failureLine (failure : Session.Failure) : String :=
  s!"Error: {failure.message}"

/-- The filter of the log: the one that the environment asks for or, without
one or with a malformed one, the level of the settings. -/
def logFilter (s : Settings) (wanted : Option String) : Except FilterFault LogFilter :=
  let ofSettings := LogFilter.ofSeverity (s.log.severity?.getD .info)
  match wanted.map LogFilter.read with
  | none => .ok ofSettings
  | some (.error .malformed) => .ok ofSettings
  | some result => result

/-- Runs the program on a program file. The log starts when the settings are
known. -/
def summarize (read : Reader) (filter : Option String) (file : String)
    (settings : Option String) : Ending :=
  match Session.loadSettings read settings with
  | (.error failure, _) =>
    { code := 1, failure := some (failureLine failure), causes := failure.causes }
  | (.ok s, _) =>
    match logFilter s filter with
    | .error _ => { code := 101 }
    | .ok filter =>
      let (result, notes) := Session.run read file s
      let ending : Ending := { code := 0, log := notes.filter filter.passes, jsonLog := s.log.json }
      match result with
      | .ok _ => ending
      | .error failure =>
        { ending with
          code := 1
          failure := some (failureLine failure)
          causes := failure.causes }

/-- Runs the program. -/
def run (read : Reader) (filter : Option String) (arguments : List String) : Ending :=
  match Request.ofArguments arguments with
  | .help => { code := 0, output := helpText }
  | .wrongUsage => { code := 2, failure := some usageLine }
  | .summarize file settings => summarize read filter file settings

end PrintPath.CommandLine
