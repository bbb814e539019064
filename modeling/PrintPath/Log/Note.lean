import PrintPath.Block.Basic
import PrintPath.Command
import PrintPath.Fault
import PrintPath.Log.Severity
import PrintPath.Policy

/-!
# Notes

What a run tells its reader. A note is what happened; its severity, the part
of the program that speaks and the wording are functions of it.
-/

namespace PrintPath

/-- The part of the program that speaks. -/
inductive Speaker where
  | host
  | settings
  | reader
  | interpreter
  | toolpath
  | cache
deriving DecidableEq, Repr

/-- The name by which a log filter knows a speaker. -/
def Speaker.target : Speaker → String
  | .host => "gcodeview"
  | .settings => "gcodeview_settings::config"
  | .reader => "gcodeview_interpreter::gcode::parser"
  | .interpreter => "gcodeview_interpreter::gcode::interpreter"
  | .toolpath => "gcodeview_interpreter::toolpath"
  | .cache => "gcodeview_interpreter::toolpath::cache"

inductive Note where
  /-- Settings were read from a file. -/
  | settingsLoaded (path : String)
  /-- Settings were written to a file. -/
  | settingsSaved (path : String)
  /-- A program file was opened. -/
  | fileOpened (path : String) (options : ReadingOptions)
  /-- A run began on a program of this many bytes. -/
  | runStarted (bytes : Nat)
  /-- A lenient reader left an argument out. -/
  | argumentSkipped (fault : Fault)
  /-- A block was handed to the machine. -/
  | blockApplied (b : Block) (command : Command)
  /-- A block that sets the position names no axis. -/
  | positionKept (line : Nat)
  /-- A line was passed over. -/
  | lineFailed (fault : Fault)
  /-- A fatal fault ended the run. -/
  | runHalted (fault : Fault)
  /-- The policy ended the run. -/
  | runAborted
  /-- The run reached the end of the program. -/
  | runCompleted (moves faults : Nat)
  | toolpathBuilt (segments layers diagnostics : Nat)
  | toolpathReused
  /-- A toolpath is to be built from inputs of this digest. -/
  | toolpathRequested (digest : UInt64)
  /-- A line of a summary. -/
  | summaryLine (line : String)

namespace Note

def severity : Note → Severity
  | argumentSkipped _ => .warn
  | blockApplied _ _ => .trace
  | lineFailed _ => .warn
  | runHalted _ => .error
  | summaryLine _ => .info
  | _ => .debug

def speaker : Note → Speaker
  | settingsLoaded _ | settingsSaved _ => .settings
  | fileOpened _ _ | summaryLine _ => .host
  | argumentSkipped _ => .reader
  | toolpathBuilt _ _ _ => .toolpath
  | toolpathReused | toolpathRequested _ => .cache
  | _ => .interpreter

def message : Note → String
  | settingsLoaded path => s!"Loaded configuration from {path}"
  | settingsSaved path => s!"Saved configuration to {path}"
  | fileOpened path options =>
    s!"Interpreting {path} (strictness: {options.strictness.name}, " ++
      s!"error policy: {options.errorPolicy.name})"
  | runStarted bytes => s!"Starting G-code interpretation, input size: {bytes} bytes"
  | argumentSkipped fault => s!"Skipping argument: {fault.message}"
  | blockApplied b command => s!"Line {b.line}: {b.text} ({command.description})"
  | positionKept line => s!"Line {line}: G92 without axes leaves position unchanged"
  | lineFailed fault => fault.message
  | runHalted fault => s!"Interpretation halted: {fault.message}"
  | runAborted => "Aborting interpretation after first error"
  | runCompleted moves faults =>
    s!"Interpretation complete: {moves} events, {faults} errors"
  | toolpathBuilt segments layers diagnostics =>
    s!"Toolpath built: {segments} segments, {layers} layers, {diagnostics} diagnostics"
  | toolpathReused => "G-code hash unchanged, reusing toolpath"
  | toolpathRequested digest => s!"Building toolpath (hash: {digest})"
  | summaryLine line => line

/-- What is noted when a block is handed to a machine. -/
def ofBlock (b : Block) : List Note :=
  match Command.ofWord? b.command with
  | none => []
  | some command =>
    if command = .setPosition ∧ b.hasAnyAxis = false then
      [blockApplied b command, positionKept b.line]
    else [blockApplied b command]

end Note

end PrintPath
