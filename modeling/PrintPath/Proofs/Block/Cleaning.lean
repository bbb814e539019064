import PrintPath.Proofs.Block.Line
import PrintPath.Proofs.Text.Words

/-!
# Strict and lenient reading

A lenient reader leaves malformed arguments out, a strict one refuses the line
for the first of them. The two meet on the cleaned line, from which the
malformed arguments have been deleted and nothing else.
-/

namespace PrintPath.Line

open Text (pieces weave)

/-- The words of a line after its command. -/
def arguments (line : List Char) : List (List Char) :=
  (codeWords line).tail

/-- Whether a word can be read as an argument. -/
def isArgument (word : List Char) : Bool :=
  match readArgument word with
  | .ok _ => true
  | .error _ => false

theorem isArgument_eq_true_iff {word : List Char} :
    isArgument word = true ↔ ∃ letter v, readArgument word = .ok (letter, v) := by
  unfold isArgument
  cases readArgument word with
  | ok argument => simp [← Prod.exists]
  | error defect => simp

theorem isArgument_eq_false_iff {word : List Char} :
    isArgument word = false ↔ ∃ defect, readArgument word = .error defect := by
  unfold isArgument
  cases readArgument word <;> simp

/-! ## One word after the other -/

/-- Without the malformed arguments a strict reader finds what a lenient one
finds among all of them. -/
theorem addStrictly_filter (n : Nat) (b : Block) (ws : List (List Char)) :
    addStrictly n b (ws.filter isArgument) = .ok (addLeniently b ws) := by
  induction ws generalizing b with
  | nil => rfl
  | cons word ws ih =>
      cases given : readArgument word with
      | ok argument =>
          obtain ⟨letter, v⟩ := argument
          have good := isArgument_eq_true_iff.mpr ⟨letter, v, given⟩
          rw [List.filter_cons_of_pos good, addStrictly_cons_of_ok given,
            addLeniently_cons_of_ok given, ih]
      | error defect =>
          have bad := isArgument_eq_false_iff.mpr ⟨defect, given⟩
          rw [List.filter_cons_of_neg (Bool.eq_false_iff.mp bad), addLeniently_cons_of_error given,
            ih]

theorem addStrictly_eq_error_iff {n : Nat} {b : Block} {ws : List (List Char)} {fault : Fault} :
    addStrictly n b ws = .error fault ↔
      ∃ before word after defect, ws = before ++ word :: after ∧
        (∀ w ∈ before, isArgument w = true) ∧ readArgument word = .error defect ∧
        fault = argumentFault n word defect := by
  induction ws generalizing b with
  | nil => simp [addStrictly, pure, Except.pure]
  | cons first ws ih =>
      cases given : readArgument first with
      | ok argument =>
          obtain ⟨letter, v⟩ := argument
          have good := isArgument_eq_true_iff.mpr ⟨letter, v, given⟩
          rw [addStrictly_cons_of_ok given, ih]
          constructor
          · rintro ⟨before, word, after, defect, rfl, fine, bad, rfl⟩
            exact ⟨first :: before, word, after, defect, rfl,
              List.forall_mem_cons.mpr ⟨good, fine⟩, bad, rfl⟩
          · rintro ⟨before, word, after, defect, split, fine, bad, rfl⟩
            cases before with
            | nil =>
                obtain ⟨rfl, rfl⟩ := List.cons.inj split
                rw [given] at bad
                cases bad
            | cons w before =>
                obtain ⟨rfl, rfl⟩ := List.cons.inj split
                exact ⟨before, word, after, defect, rfl, (List.forall_mem_cons.mp fine).2,
                  bad, rfl⟩
      | error defect =>
          have bad := isArgument_eq_false_iff.mpr ⟨defect, given⟩
          rw [addStrictly_cons_of_error given]
          constructor
          · intro h
            obtain rfl := Except.error.inj h
            exact ⟨[], first, ws, defect, rfl, by simp, given, rfl⟩
          · rintro ⟨before, word, after, defect', split, fine, bad', rfl⟩
            cases before with
            | nil =>
                obtain ⟨rfl, rfl⟩ := List.cons.inj split
                rw [given] at bad'
                rw [Except.error.inj bad']
            | cons w before =>
                obtain ⟨rfl, rfl⟩ := List.cons.inj split
                have good := fine first List.mem_cons_self
                rw [bad] at good
                cases good

/-! ## One line -/

/-- A reading sees nothing of a line but its words. -/
theorem read_congr {line line' : List Char} (h : codeWords line = codeWords line')
    (s : Strictness) (n : Nat) : read s n line = read s n line' := by
  rw [read_eq, read_eq, h]

theorem exists_read_lenient (n : Nat) (line : List Char) :
    ∃ r, read .lenient n line = .ok r := by
  rw [read_eq]
  cases codeWords line with
  | nil => exact ⟨none, rfl⟩
  | cons command args => exact ⟨some _, rfl⟩

/-- A strict reader refuses a line exactly for its first malformed argument. -/
theorem read_strict_eq_error_iff {n : Nat} {line : List Char} {fault : Fault} :
    read .strict n line = .error fault ↔
      ∃ before word after defect, arguments line = before ++ word :: after ∧
        (∀ w ∈ before, isArgument w = true) ∧ readArgument word = .error defect ∧
        fault = argumentFault n word defect := by
  unfold arguments
  rw [read_eq]
  cases codeWords line with
  | nil => simp
  | cons command args =>
      show (addStrictly n (Block.bare (String.ofList command) n) args).map some = .error fault ↔ _
      rw [List.tail_cons, ← addStrictly_eq_error_iff (b := Block.bare (String.ofList command) n)]
      cases addStrictly n (Block.bare (String.ofList command) n) args with
      | ok b => simp [Except.map]
      | error first => simp [Except.map]

theorem read_strict_fails_iff {n : Nat} {line : List Char} :
    (∃ fault, read .strict n line = .error fault) ↔
      ∃ word ∈ arguments line, isArgument word = false := by
  constructor
  · rintro ⟨fault, h⟩
    obtain ⟨before, word, after, defect, split, _, bad, _⟩ := read_strict_eq_error_iff.mp h
    refine ⟨word, ?_, isArgument_eq_false_iff.mpr ⟨defect, bad⟩⟩
    rw [split]
    exact List.mem_append_right _ List.mem_cons_self
  · rintro ⟨word, mem, bad⟩
    -- The first malformed argument is where the well-formed ones end.
    obtain ⟨word', after, found, rest⟩ : ∃ word' after, isArgument word' = false ∧
        arguments line = (arguments line).takeWhile isArgument ++ word' :: after := by
      cases stop : (arguments line).dropWhile isArgument with
      | nil => exact absurd (List.dropWhile_eq_nil_iff.mp stop word mem) (by simp [bad])
      | cons word' after =>
          refine ⟨word', after, ?_, ?_⟩
          · have first := List.head?_dropWhile_not isArgument (arguments line)
            rw [stop] at first
            simpa using first
          · rw [← stop, List.takeWhile_append_dropWhile]
    obtain ⟨defect, given⟩ := isArgument_eq_false_iff.mp found
    exact ⟨_, read_strict_eq_error_iff.mpr ⟨_, word', after, defect, rest,
      fun w mem => List.mem_takeWhile_imp mem, given, rfl⟩⟩

/-- A strict reader of a line with the same command and the well-formed
arguments alone agrees with a lenient reader. -/
theorem read_strict_of_kept {line line' : List Char}
    (h : codeWords line' = (codeWords line).take 1 ++ (arguments line).filter isArgument)
    (n : Nat) : read .strict n line' = read .lenient n line := by
  rw [read_eq, read_eq]
  unfold arguments at h
  cases given : codeWords line with
  | nil =>
      rw [given] at h
      rw [h]
      rfl
  | cons command args =>
      rw [given] at h
      rw [h]
      show (addStrictly n _ (args.filter isArgument)).map some = _
      rw [addStrictly_filter]
      rfl

/-- What a strict reader takes, a lenient one takes as well. -/
theorem read_lenient_of_strict {n : Nat} {line : List Char} {r : Option Block}
    (h : read .strict n line = .ok r) : read .lenient n line = .ok r := by
  have fine : ∀ w ∈ arguments line, isArgument w = true := by
    intro w mem
    by_contra bad
    obtain ⟨fault, failed⟩ := read_strict_fails_iff (n := n).mpr
      ⟨w, mem, Bool.eq_false_iff.mpr bad⟩
    rw [h] at failed
    cases failed
  rw [← h]
  refine (read_strict_of_kept ?_ n).symm
  unfold arguments at fine ⊢
  rw [List.filter_eq_self.mpr fine, ← List.drop_one, List.take_append_drop]

/-! ## The cleaned line -/

/-- The pieces of a line with the malformed arguments made empty. The first
word is the command. -/
def clearArguments : List (List Char) → List (List Char)
  | [] => []
  | [] :: rest => [] :: clearArguments rest
  | command :: rest => command :: rest.map fun word => if isArgument word then word else []

/-- The line with its malformed arguments deleted. Blanks and the comment stay. -/
def cleaned (line : List Char) : List Char :=
  weave (clearArguments (pieces Text.isBlank (code line))) ((code line).filter Text.isBlank) ++
    line.dropWhile (· ≠ ';')

example : cleaned "G1 X1 Yoops  E2 ;Zoops".toList = "G1 X1   E2 ;Zoops".toList := by
  decide +kernel

theorem forall₂_clearArguments (ps : List (List Char)) :
    List.Forall₂ List.Sublist (clearArguments ps) ps := by
  induction ps with
  | nil => exact .nil
  | cons p rest ih =>
      cases p with
      | nil => exact .cons (List.Sublist.refl _) ih
      | cons c p =>
          refine .cons (List.Sublist.refl _) ?_
          rw [List.forall₂_map_left_iff, List.forall₂_same]
          intro word _
          split
          · exact List.Sublist.refl word
          · exact List.nil_sublist word

/-- Every piece stays as it is or is made empty. -/
theorem mem_clearArguments {ps : List (List Char)} {p : List Char}
    (h : p ∈ clearArguments ps) : p = [] ∨ p ∈ ps := by
  induction ps with
  | nil => cases h
  | cons q rest ih =>
      cases q with
      | nil =>
          rcases List.mem_cons.mp h with rfl | later
          · exact Or.inl rfl
          · exact (ih later).imp id (List.mem_cons_of_mem _)
      | cons c q =>
          rcases List.mem_cons.mp h with rfl | later
          · exact Or.inr List.mem_cons_self
          · obtain ⟨word, mem, rfl⟩ := List.mem_map.mp later
            split
            · exact Or.inr (List.mem_cons_of_mem _ mem)
            · exact Or.inl rfl

/-- Of the words, the command and the well-formed arguments are left. -/
theorem filter_clearArguments (ps : List (List Char)) :
    (clearArguments ps).filter (!·.isEmpty) =
      (ps.filter (!·.isEmpty)).take 1 ++ (ps.filter (!·.isEmpty)).tail.filter isArgument := by
  induction ps with
  | nil => rfl
  | cons p rest ih =>
      cases p with
      | nil => exact ih
      | cons c p =>
          have kept : (rest.map fun word => if isArgument word then word else []).filter
              (!·.isEmpty) = (rest.filter (!·.isEmpty)).filter isArgument := by
            clear ih
            induction rest with
            | nil => rfl
            | cons word rest ih =>
                cases good : isArgument word with
                | true =>
                    have visible : word ≠ [] := by
                      rintro rfl
                      cases good
                    simp [good, visible, ih]
                | false => cases word <;> simp [good, ih]
          show (c :: p) :: _ = (c :: p) :: _
          rw [kept]
          rfl

theorem weave_clearArguments_sublist (line : List Char) :
    (weave (clearArguments (pieces Text.isBlank (code line)))
      ((code line).filter Text.isBlank)).Sublist (code line) := by
  have part := Text.weave_sublist (forall₂_clearArguments (pieces Text.isBlank (code line)))
    ((code line).filter Text.isBlank)
  rwa [Text.weave_pieces] at part

theorem cleaned_sublist (line : List Char) : (cleaned line).Sublist line := by
  have part := (weave_clearArguments_sublist line).append_right (line.dropWhile (· ≠ ';'))
  unfold code at part
  rwa [List.takeWhile_append_dropWhile] at part

theorem code_cleaned (line : List Char) :
    code (cleaned line) =
      weave (clearArguments (pieces Text.isBlank (code line)))
        ((code line).filter Text.isBlank) := by
  have clear : ∀ c ∈ weave (clearArguments (pieces Text.isBlank (code line)))
      ((code line).filter Text.isBlank), decide (c ≠ ';') = true := by
    intro c mem
    have inside : c ∈ code line := (weave_clearArguments_sublist line).subset mem
    exact List.mem_takeWhile_imp (p := fun c => decide (c ≠ ';')) inside
  have comment : code (line.dropWhile (· ≠ ';')) = [] := by
    have first := List.head?_dropWhile_not (· ≠ ';') line
    cases rest : line.dropWhile (· ≠ ';') with
    | nil => rfl
    | cons c rest =>
        rw [rest] at first
        exact List.takeWhile_cons_of_neg (by simpa using first)
  unfold cleaned
  rw [code, List.takeWhile_append_of_pos clear, ← code, comment, List.append_nil]

theorem codeWords_cleaned (line : List Char) :
    codeWords (cleaned line) =
      (codeWords line).take 1 ++ (arguments line).filter isArgument := by
  have shape := forall₂_clearArguments (pieces Text.isBlank (code line))
  have length : (clearArguments (pieces Text.isBlank (code line))).length =
      ((code line).filter Text.isBlank).length + 1 := by
    rw [shape.length_eq, Text.length_pieces]
  have whole : ∀ p ∈ clearArguments (pieces Text.isBlank (code line)), ∀ c ∈ p,
      Text.isBlank c = false := by
    intro p mem c inside
    rcases mem_clearArguments mem with rfl | same
    · cases inside
    · exact Text.not_sep_of_mem_pieces same inside
  unfold codeWords
  rw [code_cleaned, Text.words, Text.pieces_weave length (fun c mem => (List.mem_filter.mp mem).2)
    whole, filter_clearArguments]
  rfl

/-- A carriage return at the end of a line is no part of its words. -/
theorem codeWords_dropCarriageReturn (line : List Char) :
    codeWords (Text.dropCarriageReturn line) = codeWords line := by
  unfold Text.dropCarriageReturn
  split
  · next ending =>
      obtain ⟨start, rfl⟩ : ∃ start, line = start ++ ['\r'] := by
        exact List.getLast?_eq_some_iff.mp ending
      rw [List.dropLast_concat]
      unfold codeWords code
      rw [List.takeWhile_append]
      split
      · next all =>
          have whole : start.takeWhile (· ≠ ';') = start :=
            (List.takeWhile_sublist _).eq_of_length all
          rw [whole]
          exact (Text.words_snoc_blank (by decide) start).symm
      · rfl
  · rfl

end PrintPath.Line
