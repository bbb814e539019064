import PrintPath.Files.Error
import PrintPath.Pass
import PrintPath.Toolpath.Basic

/-!
# Building a toolpath from a program

A toolpath collects the outcomes of a pass. A fault that ends the pass is the
answer instead; other faults are kept as diagnostics.
-/

namespace PrintPath.Toolpath

/-- Adds an outcome of a pass. -/
def collect (policy : ErrorPolicy) (t : Toolpath) : Outcome → Except Fault Toolpath
  | .ok move => .ok (t.push move)
  | .error fault =>
    if Pass.ends policy fault then .error fault
    else .ok { t with diagnostics := t.diagnostics.push fault }

/-- The toolpath of the turns of a pass. Its final machine is the one at the
end of the pass. -/
def ofTurns (policy : ErrorPolicy) (drawing : DrawingOptions) (turns : List Turn) :
    Except Fault Toolpath :=
  ((turns.filterMap Turn.outcome).foldlM (collect policy) (empty drawing)).map fun t =>
    { t with finalMachine := turns.getLast?.map (·.pass.machine) }

/-- The toolpath of a program. -/
def ofProgram (program : String) (reading : ReadingOptions) (drawing : DrawingOptions) :
    Except Fault Toolpath :=
  ofTurns reading.errorPolicy drawing (Pass.ofProgram program reading).turns

/-- The toolpath of a program, and what is noted while it is built. -/
def report (program : String) (reading : ReadingOptions) (drawing : DrawingOptions) :
    Except Fault Toolpath × List Note :=
  let turns := (Pass.ofProgram program reading).turns
  let result := ofTurns reading.errorPolicy drawing turns
  let last := match result with
    | .ok t => [.toolpathBuilt t.size t.totals.layers t.diagnostics.size]
    | .error _ => []
  (result, .runStarted program.utf8ByteSize :: turns.flatMap Turn.notes ++ last)

/-- Why a program file gives no toolpath. -/
inductive ReadFault where
  | file (cause : Files.FileError)
  | program (fault : Fault)
deriving DecidableEq, Repr

def ReadFault.message : ReadFault → String
  | .file cause => s!"I/O error: {cause.message}"
  | .program fault => fault.message

/-- The toolpath of a program in UTF-8. -/
def ofBytes (bytes : ByteArray) (reading : ReadingOptions) (drawing : DrawingOptions) :
    Except ReadFault Toolpath :=
  match String.fromUTF8? bytes with
  | none => .error (.file .notText)
  | some program => (ofProgram program reading drawing).mapError .program

end PrintPath.Toolpath
