import PrintPath.CommandLine

/-!
# Program

Reads the files that the arguments name, runs the command line on them and
prints what it says.
-/

namespace PrintPath

open Files (FileError ReadError Reader)

/-- The reason of a failed system call. -/
def fileError (e : IO.Error) : FileError :=
  match e with
  | .noFileOrDirectory .. => .notFound
  | .inappropriateType _ 20 _ => .notADirectory
  | .inappropriateType _ 21 _ => .isADirectory
  | .resourceBusy .. => .other "Device or resource busy (os error 16)"
  | .permissionDenied _ code _ => .other s!"Permission denied (os error {code})"
  | e => .other (toString e)

/-- Reads a file to its end. -/
def readFile (path : String) : IO (Except ReadError ByteArray) := do
  match ← (IO.FS.Handle.mk path .read).toBaseIO with
  | .error e => return .error (.atOpen (fileError e))
  | .ok handle =>
    match ← handle.readBinToEnd.toBaseIO with
    | .error e => return .error (.atRead (fileError e))
    | .ok bytes => return .ok bytes

/-- A reader of files that are read beforehand. -/
def readerOf (paths : List String) : IO Reader := do
  let contents ← paths.mapM fun path => return (path, ← readFile path)
  return fun path => (contents.lookup path).getD (.error (.atOpen .notFound))

/-- The files that a request is about. -/
def CommandLine.Request.files : Request → List String
  | .summarize file settings => file :: settings.toList
  | _ => []

/-- The variable that holds a log filter. -/
def filterVariable : String :=
  "RUST_LOG"

def execute (arguments : List String) : IO UInt32 := do
  let read ← readerOf (CommandLine.Request.ofArguments arguments).files
  let ending := CommandLine.run read (← IO.getEnv filterVariable) arguments
  IO.print ending.output
  for note in ending.log do
    IO.eprintln (CommandLine.logLine ending.jsonLog note)
  for line in ending.failure do
    IO.eprintln line
  for cause in ending.causes do
    IO.eprintln s!"Caused by: {cause}"
  return UInt32.ofNat ending.code

end PrintPath

def main (arguments : List String) : IO UInt32 :=
  PrintPath.execute arguments
