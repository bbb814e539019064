import Mathlib.Data.List.Forall2
import Mathlib.Data.List.TakeWhile
import PrintPath.Proofs.Text.Lines
import PrintPath.Text.Blank

/-!
# Words of a text

The words of a text are its pieces between blanks, the empty ones left out. A
blank anywhere separates the words before it from those after it. A text is
woven from its pieces and its separators, so pieces can be replaced without
touching what stands between them.
-/

namespace PrintPath.Text

/-! ## Words and blanks -/

/-- No visible character of ASCII is blank. -/
theorem isBlank_of_visible {c : Char} (low : 0x20 < c.toNat) (high : c.toNat < 0x7f) :
    isBlank c = false := by
  refine Bool.eq_false_iff.mpr fun blank => ?_
  obtain ⟨r, mem, above, below⟩ := Ranges.contains_iff.mp blank
  simp only [blankRanges, List.mem_cons, List.not_mem_nil, or_false] at mem
  rcases mem with rfl | rfl | rfl | rfl | rfl | rfl | rfl | rfl | rfl | rfl <;> omega

theorem isBlank_of_isAlpha {c : Char} (h : c.isAlpha = true) : isBlank c = false := by
  rcases (Bool.or_eq_true _ _).mp h with upper | lower
  · obtain ⟨low, high⟩ : 'A'.val ≤ c.val ∧ c.val ≤ 'Z'.val := of_decide_eq_true upper
    exact isBlank_of_visible (Nat.lt_of_lt_of_le (by decide) low)
      (Nat.lt_of_le_of_lt high (by decide))
  · obtain ⟨low, high⟩ : 'a'.val ≤ c.val ∧ c.val ≤ 'z'.val :=
      ((Bool.and_eq_true _ _).mp lower).imp of_decide_eq_true of_decide_eq_true
    exact isBlank_of_visible (Nat.lt_of_lt_of_le (by decide) low)
      (Nat.lt_of_le_of_lt high (by decide))

@[simp] theorem words_nil : words [] = [] := rfl

theorem words_append_blank {c : Char} (h : isBlank c = true) (x y : List Char) :
    words (x ++ c :: y) = words x ++ words y := by
  unfold words
  rw [pieces_append_cons h, List.filter_append]

theorem words_cons_blank {c : Char} (h : isBlank c = true) (y : List Char) :
    words (c :: y) = words y :=
  words_append_blank h [] y

theorem words_snoc_blank {c : Char} (h : isBlank c = true) (x : List Char) :
    words (x ++ [c]) = words x := by
  rw [words_append_blank h, words_nil, List.append_nil]

theorem words_cons_ne_nil {c : Char} (h : isBlank c = false) (y : List Char) :
    words (c :: y) ≠ [] := by
  obtain ⟨first, rest, eq⟩ := List.exists_cons_of_ne_nil (pieces_ne_nil isBlank y)
  unfold words
  rw [pieces_cons, if_neg (Bool.eq_false_iff.mp h), eq, List.modifyHead_cons,
    List.filter_cons_of_pos rfl]
  exact List.cons_ne_nil _ _

/-- A text has no words exactly if it has nothing but blanks. -/
theorem words_eq_nil_iff {cs : List Char} : words cs = [] ↔ ∀ c ∈ cs, isBlank c = true := by
  induction cs with
  | nil => simp
  | cons c cs ih =>
      cases h : isBlank c with
      | true => rw [words_cons_blank h, ih, List.forall_mem_cons, and_iff_right h]
      | false => simp [words_cons_ne_nil h, h]

/-- Trimming leaves nothing exactly of a text that has nothing but blanks. -/
theorem trim_eq_nil_iff {cs : List Char} : trim cs = [] ↔ ∀ c ∈ cs, isBlank c = true := by
  unfold trim
  rw [List.reverse_eq_nil_iff, List.dropWhile_eq_nil_iff]
  constructor
  · intro h c mem
    rw [← List.takeWhile_append_dropWhile (p := isBlank) (l := cs)] at mem
    rcases List.mem_append.mp mem with before | after
    · exact List.mem_takeWhile_imp before
    · exact h c (List.mem_reverse.mpr after)
  · intro h c mem
    exact h c (List.dropWhile_sublist isBlank |>.subset (List.mem_reverse.mp mem))

theorem words_eq_nil_iff_trim {cs : List Char} : words cs = [] ↔ trim cs = [] := by
  rw [words_eq_nil_iff, trim_eq_nil_iff]

/-! ## Runs of one kind -/

section Runs

variable {p : Char → Bool} {run rest : List Char} (all : ∀ c ∈ run, p c = true)
  (stop : ∀ c ∈ rest.head?, p c = false)

include all stop

/-- A run of characters of a kind ends where one of another kind follows. -/
theorem takeWhile_run : (run ++ rest).takeWhile p = run := by
  rw [List.takeWhile_append_of_pos all]
  cases rest with
  | nil => exact List.append_nil run
  | cons c rest =>
      rw [List.takeWhile_cons_of_neg (Bool.eq_false_iff.mp (stop c rfl)), List.append_nil]

theorem dropWhile_run : (run ++ rest).dropWhile p = rest := by
  rw [List.dropWhile_append_of_pos all]
  cases rest with
  | nil => rfl
  | cons c rest => exact List.dropWhile_cons_of_neg (Bool.eq_false_iff.mp (stop c rfl))

end Runs

/-! ## Words on their own -/

/-- What every word of a text fulfils. -/
structure IsWord (w : List Char) : Prop where
  nonempty : w ≠ []
  solid : ∀ c ∈ w, isBlank c = false

instance : DecidablePred IsWord := fun w =>
  decidable_of_iff (w ≠ [] ∧ w.all (!isBlank ·) = true)
    ⟨fun ⟨nonempty, solid⟩ => ⟨nonempty, by simpa using solid⟩,
      fun h => ⟨h.nonempty, by simpa using h.solid⟩⟩

theorem isWord_of_mem_words {cs w : List Char} (h : w ∈ words cs) : IsWord w where
  nonempty := by simpa using (List.mem_filter.mp h).2
  solid _ mem := not_sep_of_mem_pieces (List.mem_filter.mp h).1 mem

theorem mem_of_mem_words {cs w : List Char} {c : Char} (h : w ∈ words cs) (mem : c ∈ w) :
    c ∈ cs :=
  mem_of_mem_pieces (List.mem_filter.mp h).1 mem

theorem words_of_isWord {w : List Char} (h : IsWord w) : words w = [w] := by
  have whole : pieces isBlank w = [w] := by
    rw [pieces_eq_splitOnP]
    exact List.splitOnP_eq_singleton h.solid
  rw [words, whole, List.filter_cons_of_pos (by simpa using h.nonempty), List.filter_nil]

/-- Words that are written with a space before each but the first are read back. -/
theorem words_spaced {w : List Char} {ws : List (List Char)} (first : IsWord w)
    (others : ∀ v ∈ ws, IsWord v) : words (w ++ ws.flatMap (' ' :: ·)) = w :: ws := by
  induction ws generalizing w with
  | nil => rw [List.flatMap_nil, List.append_nil, words_of_isWord first]
  | cons v ws ih =>
      rw [List.forall_mem_cons] at others
      rw [List.flatMap_cons, List.cons_append, words_append_blank (by decide),
        words_of_isWord first, ih others.1 others.2]
      rfl

/-! ## Weaving pieces and separators -/

/-- The text of some pieces, with a separator between any two of them. -/
def weave (ps : List (List Char)) (seps : List Char) : List Char :=
  (List.zipWith (· ++ ·) ps (seps.map (fun c => [c]) ++ [[]])).flatten

theorem weave_singleton (p : List Char) : weave [p] [] = p := by
  simp [weave]

theorem weave_cons_cons (p : List Char) (ps : List (List Char)) (c : Char) (seps : List Char) :
    weave (p :: ps) (c :: seps) = p ++ c :: weave ps seps := by
  simp [weave]

/-- A text is woven from its pieces and its separators. -/
theorem weave_pieces (sep : Char → Bool) (cs : List Char) :
    weave (pieces sep cs) (cs.filter sep) = cs := by
  rw [pieces_eq_splitOnP]
  exact List.splitOnP_spec cs

theorem length_pieces (sep : Char → Bool) (cs : List Char) :
    (pieces sep cs).length = (cs.filter sep).length + 1 := by
  induction cs with
  | nil => rfl
  | cons c cs ih =>
      rw [pieces_cons]
      by_cases h : sep c = true
      · rw [if_pos h, List.filter_cons_of_pos h, List.length_cons, List.length_cons, ih]
      · rw [if_neg h, List.filter_cons_of_neg h, List.length_modifyHead, ih]

/-- There is one line more than there are line feeds. -/
theorem length_lines (cs : List Char) : (lines cs).length = cs.count '\n' + 1 := by
  rw [lines, List.length_map, length_pieces, List.count_eq_length_filter]

/-- Cutting what was woven gives the pieces, if no separator is in them. -/
theorem pieces_weave {sep : Char → Bool} {ps : List (List Char)} {seps : List Char}
    (length : ps.length = seps.length + 1) (separate : ∀ c ∈ seps, sep c = true)
    (whole : ∀ p ∈ ps, ∀ c ∈ p, sep c = false) : pieces sep (weave ps seps) = ps := by
  induction seps generalizing ps with
  | nil =>
      obtain ⟨p, rfl⟩ := List.length_eq_one_iff.mp length
      rw [weave_singleton, pieces_eq_splitOnP]
      exact List.splitOnP_eq_singleton (whole p List.mem_cons_self)
  | cons c seps ih =>
      obtain ⟨p, ps, rfl⟩ := List.exists_cons_of_length_eq_add_one length
      rw [List.forall_mem_cons] at separate whole
      have rest := ih (Nat.succ.inj length) separate.2 whole.2
      rw [weave_cons_cons, pieces_eq_splitOnP,
        List.splitOnP_append_cons_of_forall_mem whole.1 c separate.1, ← pieces_eq_splitOnP, rest]

/-- Weaving with shorter pieces gives a part of the text. -/
theorem weave_sublist {ps qs : List (List Char)} (h : List.Forall₂ List.Sublist ps qs)
    (seps : List Char) : (weave ps seps).Sublist (weave qs seps) := by
  induction h generalizing seps with
  | nil => simp [weave]
  | @cons p q ps qs first rest ih =>
      cases seps with
      | nil => simpa [weave] using first
      | cons c seps =>
          rw [weave_cons_cons, weave_cons_cons]
          exact first.append ((ih seps).cons_cons c)

end PrintPath.Text
