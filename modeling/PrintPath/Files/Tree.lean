import PrintPath.Files.Error
import PrintPath.Files.Path

/-!
# Files

A file system as a value: the files and directories under a working
directory. Of what lies above it only the directories on the way to the root
are known.
-/

namespace PrintPath.Files

/-- A way to read files. -/
abbrev Reader := String → Except ReadError ByteArray

/-- A way to write files, with the files afterwards. A write that fails may still have
changed them. -/
abbrev Writer (σ : Type) := String → ByteArray → σ → Except FileError Unit × σ

inductive Entry where
  | file (bytes : ByteArray)
  | directory

/-- The entries by their locations. -/
structure Tree where
  entries : List (List String × Entry) := []

/-- What a path leads to. -/
structure Place where
  location : List String
  entry : Entry

namespace Tree

def longestName : Nat :=
  255

def longestPath : Nat :=
  4095

/-- What is at a location. -/
def find? (t : Tree) (location : List String) : Option Entry :=
  if leadsUp location then some .directory else t.entries.lookup location

/-- Follows one name from a place, which has to be a directory. -/
def follow (t : Tree) (here : Place) (name : String) : Except FileError Place :=
  match here.entry with
  | .file _ => .error .notADirectory
  | .directory =>
    let location := advance here.location name
    if longestName < name.utf8ByteSize then .error .nameTooLong
    else match t.find? location with
      | some entry => .ok ⟨location, entry⟩
      | none => .error .notFound

/-- Follows names from where a path starts. -/
def walk (t : Tree) (path : String) (names : List String) : Except FileError Place :=
  names.foldlM t.follow ⟨start path, .directory⟩

/-- Refuses paths that are no paths. -/
def checkPath (path : String) : Except FileError Unit :=
  if '\x00' ∈ path.toList then .error .zeroInName
  else if path = "" then .error .notFound
  else if longestPath < path.utf8ByteSize then .error .nameTooLong
  else .ok ()

/-- Opens what a path leads to. -/
def openAt (t : Tree) (path : String) : Except FileError Entry := do
  checkPath path
  match (← t.walk path (names path)).entry with
  | .file bytes => if endsInSlash path then .error .notADirectory else .ok (.file bytes)
  | .directory => .ok .directory

/-- The bytes of a file. -/
def read (t : Tree) : Reader := fun path =>
  match t.openAt path with
  | .error e => .error (.atOpen e)
  | .ok (.file bytes) => .ok bytes
  | .ok .directory => .error (.atRead .isADirectory)

/-- Puts an entry in the place of the one at a location. -/
def put (t : Tree) (location : List String) (entry : Entry) : Tree :=
  ⟨(location, entry) :: t.entries.filter (·.1 != location)⟩

/-- Puts an entry where it does not exist yet, with the directories that lead
to it. -/
def create (t : Tree) (path : String) (entry : Entry) : Tree :=
  let location := locate path
  let above := (List.range location.length).tail.map location.take
  (above.foldl (fun t p => if (t.find? p).isSome then t else t.put p .directory) t).put
    location entry

/-- Writes a file, in place of an earlier one if there is one. A path that
ends in a slash or in dots would name a directory. -/
def write (t : Tree) (path : String) (bytes : ByteArray) : Except FileError Tree := do
  checkPath path
  match (names path).getLast? with
  | none => .error .isADirectory
  | some name =>
    let above ← t.walk path (names path).dropLast
    match above.entry with
    | .file _ => .error .notADirectory
    | .directory =>
      let location := advance above.location name
      if endsInSlash path ∨ name = "." ∨ name = ".." then .error .isADirectory
      else if longestName < name.utf8ByteSize then .error .nameTooLong
      else match t.find? location with
        | some .directory => .error .isADirectory
        | _ => .ok (t.put location (.file bytes))

/-- Writes files, and leaves them as they are if it fails. -/
def writer : Writer Tree := fun path bytes t =>
  match t.write path bytes with
  | .ok written => (.ok (), written)
  | .error e => (.error e, t)

end Tree

end PrintPath.Files
