import PrintPath.Document.Basic

/-!
# TOML tables

How the statements of a TOML text build up tables. A table is opened by a
header, implied by a header further down, or built by dotted keys, and only
some of these may be met again: no header names a table twice, and no dotted
key reaches into a table that a header has opened.
-/

namespace PrintPath.Toml

/-- How a table came about. -/
inductive TableKind where
  | opened
  | implied
  | dotted
deriving DecidableEq, Repr

/-- What stands under a key. -/
inductive Node where
  /-- A value, which is complete, also if it is a table in braces. -/
  | value (d : Document)
  | table (kind : TableKind) (entries : List (String × Node))
  /-- An array of tables, the last one in front. -/
  | tables (last : List (String × Node)) (earlier : List (List (String × Node)))

abbrev Entries := List (String × Node)

/-- Puts a node in the place of the one under its key. -/
def Entries.replace (es : Entries) (key : String) (n : Node) : Entries :=
  es.map fun e => if e.1 == key then (key, n) else e

/-- Changes the table at the end of a path, and creates the tables on the way
that do not exist. The path goes through the last table of an array. A dotted
path does not go through an opened table. -/
def descend (dotted : Bool) (change : TableKind → Entries → Option Entries) :
    List String → TableKind → Entries → Option Entries
  | [], kind, es => change kind es
  | key :: path, _, es =>
    match es.lookup key with
    | none =>
      let kind : TableKind := if dotted then .dotted else .implied
      (descend dotted change path kind []).map fun sub => es ++ [(key, .table kind sub)]
    | some (.table kind sub) =>
      if dotted && kind == .opened then none
      else (descend dotted change path kind sub).map fun sub => es.replace key (.table kind sub)
    | some (.tables last earlier) =>
      (descend dotted change path .opened last).map fun last =>
        es.replace key (.tables last earlier)
    | some (.value _) => none

/-- Adds a value under a dotted key. The table that receives it has to be one
that dotted keys build, unless the key has one part. -/
def addValue (path : List String) (key : String) (d : Document) (es : Entries) :
    Option Entries :=
  let insert (kind : TableKind) (es : Entries) : Option Entries :=
    if (kind == .dotted) == path.isEmpty || (es.lookup key).isSome then none
    else some (es ++ [(key, .value d)])
  descend true insert path .opened es

/-- Opens a table. A table that other headers imply may still be opened. -/
def openTable (key : String) (es : Entries) : Option Entries :=
  match es.lookup key with
  | none => some (es ++ [(key, .table .opened [])])
  | some (.table .implied sub) => some (es.replace key (.table .opened sub))
  | some _ => none

/-- Adds a table to an array of tables. -/
def openElement (key : String) (es : Entries) : Option Entries :=
  match es.lookup key with
  | none => some (es ++ [(key, .tables [] [])])
  | some (.tables last earlier) => some (es.replace key (.tables [] (last :: earlier)))
  | some _ => none

/-! ## Statements -/

/-- A line of a text. A path ends in its key. -/
inductive Statement where
  | header (path : List String) (key : String)
  | arrayHeader (path : List String) (key : String)
  | entry (path : List String) (key : String) (d : Document)

/-- What a text has built so far, and the table that its last header opened. -/
structure Builder where
  root : Entries := []
  current : List String := []

def Builder.add (b : Builder) : Statement → Option Builder
  | .header path key =>
    (descend false (fun _ => openTable key) path .opened b.root).map
      fun root => ⟨root, path ++ [key]⟩
  | .arrayHeader path key =>
    (descend false (fun _ => openElement key) path .opened b.root).map
      fun root => ⟨root, path ++ [key]⟩
  | .entry path key d =>
    (descend false (fun _ => addValue path key d) b.current .opened b.root).map
      fun root => { b with root := root }

mutual

def Node.toDocument : Node → Document
  | .value d => d
  | .table _ es => .table (entryDocuments es)
  | .tables last earlier => .list (elementDocuments earlier [.table (entryDocuments last)])

def entryDocuments : List (String × Node) → List (String × Document)
  | [] => []
  | (key, n) :: rest => (key, n.toDocument) :: entryDocuments rest

/-- The tables of an array in front of those that come later. -/
def elementDocuments : List (List (String × Node)) → List Document → List Document
  | [], later => later
  | es :: earlier, later => elementDocuments earlier (.table (entryDocuments es) :: later)

end

/-- The table that statements build. -/
def ofStatements (statements : List Statement) : Option Document :=
  (statements.foldlM Builder.add {}).map fun b => .table (entryDocuments b.root)

/-- The table that entries in braces build. -/
def ofEntries (entries : List (List String × String × Document)) : Option Document :=
  (entries.foldlM (fun es (path, key, d) => addValue path key d es) []).map
    fun es => .table (entryDocuments es)

end PrintPath.Toml
