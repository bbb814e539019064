import PrintPath.Text.Pieces

/-!
# Cutting and joining lines

Cutting a text at a character is the library's `List.splitOn`, so joining the
pieces again gives the text, and cutting what was joined gives the pieces,
provided that none of them holds the character itself.
-/

namespace PrintPath.Text

theorem pieces_cons (sep : Char → Bool) (c : Char) (cs : List Char) :
    pieces sep (c :: cs) =
      if sep c then [] :: pieces sep cs else (pieces sep cs).modifyHead (c :: ·) := by
  by_cases h : sep c = true
  · rw [if_pos h]
    exact pieces_cons_of_sep h cs
  · rw [if_neg h]
    have some := pieces_ne_nil sep cs
    unfold pieces at some ⊢
    rw [List.foldr_cons, if_neg h]
    revert some
    cases cs.foldr _ [[]] with
    | nil => exact fun some => absurd rfl some
    | cons piece rest => exact fun _ => rfl

theorem pieces_eq_splitOnP (sep : Char → Bool) (cs : List Char) :
    pieces sep cs = cs.splitOnP sep := by
  induction cs with
  | nil => rfl
  | cons c cs ih =>
      rw [pieces_cons, List.splitOnP_cons_eq_if_modifyHead, ih]

theorem pieces_eq_splitOn (sep : Char) (cs : List Char) :
    pieces (· == sep) cs = cs.splitOn sep := by
  rw [pieces_eq_splitOnP, List.splitOn_eq_splitOnP]

/-- A separator parts the pieces before it from those after it. -/
theorem pieces_append_cons {sep : Char → Bool} {c : Char} (h : sep c = true) (x y : List Char) :
    pieces sep (x ++ c :: y) = pieces sep x ++ pieces sep y := by
  simp only [pieces_eq_splitOnP]
  exact List.splitOnP_append_cons x y h

/-- The pieces hold everything but the separators. -/
theorem flatten_pieces (sep : Char → Bool) (cs : List Char) :
    (pieces sep cs).flatten = cs.filter (!sep ·) := by
  induction cs with
  | nil => rfl
  | cons c cs ih =>
      obtain ⟨head, rest, eq⟩ := List.exists_cons_of_ne_nil (pieces_ne_nil sep cs)
      cases cut : sep c with
      | true =>
          rw [pieces_cons_of_sep cut, List.flatten_cons, List.nil_append, ih,
            List.filter_cons_of_neg (by simp [cut])]
      | false =>
          rw [pieces_cons, if_neg (Bool.eq_false_iff.mp cut),
            List.filter_cons_of_pos (by simp [cut]), ← ih, eq]
          rfl

section Piece

variable {sep : Char → Bool} {cs piece : List Char} {c : Char}

/-- A piece holds nothing but characters of the text. -/
theorem mem_of_mem_pieces (h : piece ∈ pieces sep cs) (mem : c ∈ piece) : c ∈ cs := by
  have inside := List.mem_flatten_of_mem h mem
  rw [flatten_pieces] at inside
  exact (List.mem_filter.mp inside).1

/-- A piece holds no separator. -/
theorem not_sep_of_mem_pieces (h : piece ∈ pieces sep cs) (mem : c ∈ piece) :
    sep c = false := by
  have inside := List.mem_flatten_of_mem h mem
  rw [flatten_pieces] at inside
  simpa using (List.mem_filter.mp inside).2

end Piece

theorem not_mem_of_mem_pieces {sep : Char} {cs piece : List Char}
    (h : piece ∈ pieces (· == sep) cs) : sep ∉ piece := by
  intro mem
  have other := not_sep_of_mem_pieces h mem
  simp at other

/-- The text of some lines, with a line feed between any two of them. -/
def unlines (ls : List (List Char)) : List Char :=
  ['\n'].intercalate ls

theorem pieces_unlines {ls : List (List Char)} (some : ls ≠ [])
    (single : ∀ l ∈ ls, '\n' ∉ l) : pieces (· == '\n') (unlines ls) = ls := by
  rw [pieces_eq_splitOn]
  exact List.splitOn_intercalate '\n' single some

/-- Joined lines are read back, less a carriage return at the end of each. -/
theorem lines_unlines {ls : List (List Char)} (some : ls ≠ [])
    (single : ∀ l ∈ ls, '\n' ∉ l) : lines (unlines ls) = ls.map dropCarriageReturn := by
  rw [lines, pieces_unlines some single]

/-- A line feed parts the lines before it from those after it. A carriage return before it
belongs to the last line of the first part, which loses it either way. -/
theorem lines_append_feed (x y : List Char) : lines (x ++ '\n' :: y) = lines x ++ lines y := by
  have cut : pieces (· == '\n') (x ++ '\n' :: y) = pieces (· == '\n') x ++ pieces (· == '\n') y :=
    pieces_append_cons rfl x y
  rw [lines, cut, List.map_append]
  rfl

end PrintPath.Text
