import PrintPath.Text.Pieces

/-!
# Paths

A path is a text with slashes between names. Repeated slashes count once. The
names of a path lead to a location, which is a list of names without single
dots: below the working directory, above it if the list starts with double
dots, or below the root if it starts with a slash.
-/

namespace PrintPath.Files

/-- The names of a path, without empty ones. -/
def names (path : String) : List String :=
  ((Text.pieces (· == '/') path.toList).filter (!·.isEmpty)).map String.ofList

/-- Whether a path can only name a directory. -/
def endsInSlash (path : String) : Bool :=
  path.toList.getLast? == some '/'

def isAbsolute (path : String) : Bool :=
  path.toList.head? == some '/'

/-! ## Locations -/

/-- Whether a location is the root, or the working directory or one above. -/
def leadsUp (location : List String) : Bool :=
  location == ["/"] || location.all (· == "..")

/-- The directory around a location. The root has itself around it. -/
def parent (location : List String) : List String :=
  if location = ["/"] then ["/"]
  else if leadsUp location then location ++ [".."]
  else location.dropLast

/-- The location that a name leads to. -/
def advance (location : List String) (name : String) : List String :=
  if name = "." then location
  else if name = ".." then parent location
  else location ++ [name]

/-- Where a path starts. -/
def start (path : String) : List String :=
  if isAbsolute path then ["/"] else []

/-- The location that a path leads to. -/
def locate (path : String) : List String :=
  (names path).foldl advance (start path)

/-! ## Names of files -/

/-- The last name of a path, if it is the name of a file. Single dots are
passed over. -/
def fileName? (path : String) : Option String :=
  ((names path).filter (· != ".")).getLast?.filter (· != "..")

/-- What follows the last dot of a file name. A name whose only dot is its
first character has no extension. -/
def extension? (path : String) : Option String := do
  let name ← fileName? path
  let parts := Text.pieces (· == '.') name.toList
  let last ← parts.getLast?
  if parts.length = 1 ∨ parts.dropLast = [[]] then none else some (String.ofList last)

end PrintPath.Files
