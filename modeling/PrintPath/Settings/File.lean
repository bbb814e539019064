import PrintPath.Files.Tree
import PrintPath.Json.Reader
import PrintPath.Json.Writer
import PrintPath.Settings.Document
import PrintPath.Toml.Reader
import PrintPath.Toml.Writer

/-!
# Settings files

Settings are read from and written to files in one of two formats, which the
extension of the file tells. Only valid settings are loaded or saved. Loading and
saving take the codecs of the formats as an argument, which may be left out.
-/

namespace PrintPath.Settings

open Files (FileError Reader Writer)

/-- What can be wrong with settings or their file. -/
inductive Problem where
  | unreadable (path : String) (cause : FileError)
  | unwritable (path : String) (cause : FileError)
  | unknownLevel (level : String)
  | notJson
  | notToml
  /-- The extension is none of the known ones, or there is none. -/
  | unsupportedFormat (extension : Option String)
deriving DecidableEq, Repr

namespace Problem

/-- The setting that is not valid. -/
def levelKey : String :=
  "logging.level"

/-- How an extension is named. -/
def extensionName (extension : Option String) : String :=
  extension.getD "<none>"

def message : Problem → String
  | unreadable path cause => s!"Failed to load settings: {path}: {cause.message}"
  | unwritable path cause => s!"Failed to save settings: {path}: {cause.message}"
  | unknownLevel level => s!"Invalid setting '{levelKey}': unknown level '{level}'"
  | notJson => "JSON error"
  | notToml => "TOML error"
  | unsupportedFormat extension =>
    s!"Config error: Unsupported config format: {extensionName extension}"

end Problem

inductive Format where
  | json
  | toml
deriving DecidableEq, Repr

def Format.name : Format → String
  | .json => "json"
  | .toml => "toml"

/-- The format of a file, by its extension in any case. -/
def Format.ofPath (path : String) : Except Problem Format :=
  match Files.extension? path with
  | none => .error (.unsupportedFormat none)
  | some extension =>
    match [Format.json, .toml].find? fun f =>
        Severity.sameLetters extension.toList f.name.toList with
    | some f => .ok f
    | none => .error (.unsupportedFormat (some extension))

/-- The severity that the log is filtered by. -/
def severity (s : Settings) : Except Problem Severity :=
  match s.log.severity? with
  | some severity => .ok severity
  | none => .error (.unknownLevel s.log.level)

def validate (s : Settings) : Except Problem Unit :=
  s.severity.map fun _ => ()

/-- A way to write settings as text and to read them back. Both may fail. -/
structure Codec where
  render : Settings → Except Problem String
  /-- The settings that a text holds. They need not be valid. -/
  parse : String → Except Problem Settings

/-- JSON documents. -/
def jsonCodec : Codec where
  render s := .ok (Json.write s.toSections)
  parse text :=
    match (Json.read text).bind (ofDocument? Json.convention) with
    | some s => .ok s
    | none => .error .notJson

/-- TOML documents. -/
def tomlCodec : Codec where
  render s := .ok (Toml.write s.toSections)
  parse text :=
    match (Toml.read text).bind (ofDocument? Toml.convention) with
    | some s => .ok s
    | none => .error .notToml

/-- The codecs of the program. -/
def Format.codec : Format → Codec
  | .json => jsonCodec
  | .toml => tomlCodec

/-- The settings that a text holds. -/
def parse (format : Format) (text : String) (codecs : Format → Codec := Format.codec) :
    Except Problem Settings :=
  (codecs format).parse text

/-- The text of a file. -/
def readText (read : Reader) (path : String) : Except Problem String :=
  match read path with
  | .error e => .error (.unreadable path e.cause)
  | .ok bytes =>
    match String.fromUTF8? bytes with
    | some text => .ok text
    | none => .error (.unreadable path .notText)

/-- The settings of a file. -/
def load (read : Reader) (path : String) (codecs : Format → Codec := Format.codec) :
    Except Problem Settings := do
  let format ← Format.ofPath path
  let text ← readText read path
  let s ← parse format text codecs
  s.validate
  return s

/-- The text to save settings as. -/
def savingText (s : Settings) (path : String) (codecs : Format → Codec) :
    Except Problem String := do
  s.validate
  let format ← Format.ofPath path
  (codecs format).render s

/-- Saves settings, and gives the files afterwards. -/
def save {σ : Type} (write : Writer σ) (s : Settings) (path : String) (files : σ)
    (codecs : Format → Codec := Format.codec) : Except Problem Unit × σ :=
  match s.savingText path codecs with
  | .error problem => (.error problem, files)
  | .ok text =>
    let (result, files) := write path text.toUTF8 files
    (result.mapError (.unwritable path), files)

end PrintPath.Settings
