/-!
# Cutting text

`pieces` cuts a text at every separator, so there is always at least one
piece and the separators are gone. Lines are the pieces between line feeds,
words the non-empty pieces between blanks.
-/

namespace PrintPath.Text

/-- The stretches between the characters that `sep` accepts. -/
def pieces (sep : Char → Bool) (cs : List Char) : List (List Char) :=
  cs.foldr
    (fun c acc =>
      if sep c then [] :: acc
      else match acc with
        | [] => [[c]]
        | piece :: rest => (c :: piece) :: rest)
    [[]]

@[simp] theorem pieces_nil (sep : Char → Bool) : pieces sep [] = [[]] := rfl

theorem pieces_cons_of_sep {sep : Char → Bool} {c : Char} (h : sep c = true)
    (cs : List Char) : pieces sep (c :: cs) = [] :: pieces sep cs := by
  simp [pieces, h]

theorem pieces_ne_nil (sep : Char → Bool) (cs : List Char) : pieces sep cs ≠ [] := by
  cases cs with
  | nil => simp
  | cons c cs =>
    simp only [pieces, List.foldr_cons]
    split
    · simp
    · split <;> simp

/-- A carriage return at the end of a line belongs to the line break. -/
def dropCarriageReturn (line : List Char) : List Char :=
  if line.getLast? = some '\r' then line.dropLast else line

/-- The lines of a text. -/
def lines (cs : List Char) : List (List Char) :=
  (pieces (· == '\n') cs).map dropCarriageReturn

end PrintPath.Text
