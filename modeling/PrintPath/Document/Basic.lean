/-!
# Documents

The values that a settings file or an exchanged document holds, whatever
format it was written in. A table keeps its members in order and may name one
twice; what that means is for its reader to say.
-/

namespace PrintPath

inductive Document where
  | null
  | bool (b : Bool)
  | integer (i : Int)
  | float (x : Float)
  | text (s : String)
  | list (items : List Document)
  | table (members : List (String × Document))
  /-- A well-formed value that no field can hold, such as a number beyond every
  range. It does no harm where nobody reads it. -/
  | unreadable
deriving Inhabited

namespace Document

/-- What the formats disagree on when a document stands for a structure. -/
structure Convention where
  /-- Whether a list may go on after the last field. -/
  extraItems : Bool
  /-- What may stand beside the name of an alternative. -/
  isUnit : Document → Bool

/-- The member of a name; `none` if it is named twice. -/
def member (name : String) (members : List (String × Document)) : Option (Option Document) :=
  match members.filter (·.1 == name) with
  | [] => some none
  | [(_, d)] => some (some d)
  | _ => none

/-- The fields of a structure, in the order of their names. A structure is a
table, whose other members do not count, or a list of the fields in order. A
field that is not there is `none`. -/
def fields (c : Convention) (names : List String) : Document → Option (List (Option Document))
  | table members => names.mapM (member · members)
  | list items =>
    if c.extraItems || items.length ≤ names.length then
      some (names.zipIdx.map fun (_, i) => items[i]?)
    else none
  | _ => none

/-- The fields of a structure that has to have them all. -/
def allFields (c : Convention) (names : List String) (d : Document) :
    Option (List Document) := do
  (← d.fields c names).mapM id

/-- The name of an alternative: a text, or a table with that one member. -/
def alternative (c : Convention) : Document → Option String
  | text s => some s
  | table [(name, d)] => if c.isUnit d then some name else none
  | _ => none

/-- One of several alternatives. -/
def choice {α : Type} (c : Convention) (all : List α) (name : α → String) (d : Document) :
    Option α := do
  let s ← d.alternative c
  all.find? (name · == s)

def bool? : Document → Option Bool
  | bool b => some b
  | _ => none

def text? : Document → Option String
  | text s => some s
  | _ => none

end Document

end PrintPath
