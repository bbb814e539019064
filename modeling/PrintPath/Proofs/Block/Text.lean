import PrintPath.Proofs.Block.Cleaning
import PrintPath.Proofs.Number.Plain

/-!
# Blocks as lines

A block that was read from a line has a word for its command, lower-case letters
and finite numbers. That is all a text needs to be read as the same block again,
however untidy the line was.
-/

namespace PrintPath

/-! ## Blocks that were read -/

/-- An argument that can be read: a letter in lower case and a finite number. -/
structure IsTidy (e : Char × Float) : Prop where
  letter : e.1.isLower = true
  number : e.2.isFinite = true

/-- What every block fulfils that was read from a line. -/
structure Block.Readable (b : Block) : Prop where
  command : Text.IsWord b.command.toList
  code : ';' ∉ b.command.toList
  arguments : ∀ e ∈ b.arguments.entries, IsTidy e

theorem toLower_of_isLower {c : Char} (h : c.isLower = true) : c.toLower = c :=
  Char.toLower_eq_of_not_isUpper (Char.not_isUpper_of_isLower h)

theorem readArgument_eq_ok_iff {word : List Char} {e : Char × Float} :
    readArgument word = .ok e ↔ ∃ letter number, word = letter :: number ∧
      letter.isAlpha = true ∧ number ≠ [] ∧ Number.readFloat number = some e.2 ∧
      e.2.isFinite = true ∧ e.1 = letter.toLower := by
  constructor
  · intro h
    unfold readArgument at h
    split at h
    · cases h
    · next letter number =>
      split at h
      · cases h
      · next alpha =>
        split at h
        · cases h
        · next given =>
          split at h
          · cases h
          · next v parsed =>
            split at h
            · next finite =>
              cases h
              exact ⟨letter, number, rfl, by simpa using alpha, given, parsed, finite, rfl⟩
            · cases h
  · rintro ⟨letter, number, rfl, alpha, given, parsed, finite, lower⟩
    unfold readArgument
    dsimp only
    rw [alpha, if_neg (by decide), if_neg given, parsed]
    dsimp only
    rw [if_pos finite, ← lower]

theorem isTidy_of_readArgument {word : List Char} {e : Char × Float}
    (h : readArgument word = .ok e) : IsTidy e := by
  obtain ⟨letter, number, -, alpha, -, -, finite, lower⟩ := readArgument_eq_ok_iff.mp h
  refine ⟨?_, finite⟩
  rw [lower, Char.isLower_toLower_eq_isAlpha, alpha]

theorem Block.Readable.withArgument {b : Block} {e : Char × Float} (h : b.Readable)
    (tidy : IsTidy e) : (b.withArgument e.1 e.2).Readable where
  command := h.command
  code := h.code
  arguments := by
    intro e' mem
    rcases mem_insertEntry mem with rfl | old
    · exact ⟨(toLower_of_isLower tidy.letter).symm ▸ tidy.letter, tidy.number⟩
    · exact h.arguments e' old

namespace Line

theorem readable_addLeniently {b : Block} (h : b.Readable) (ws : List (List Char)) :
    (addLeniently b ws).Readable := by
  induction ws generalizing b with
  | nil => exact h
  | cons word ws ih =>
      cases given : readArgument word with
      | ok argument =>
          rw [addLeniently_cons_of_ok given]
          exact ih (h.withArgument (isTidy_of_readArgument given))
      | error defect =>
          rw [addLeniently_cons_of_error given]
          exact ih h

theorem readable_bare {line command : List Char} (h : command ∈ codeWords line) (n : Nat) :
    (Block.bare (String.ofList command) n).Readable where
  command := by
    rw [Block.bare, String.toList_ofList]
    exact Text.isWord_of_mem_words h
  code := by
    rw [Block.bare, String.toList_ofList]
    intro mem
    have inside : ';' ∈ code line := Text.mem_of_mem_words h mem
    have other := List.mem_takeWhile_imp inside
    simp at other
  arguments _ mem := nomatch mem

theorem readable_of_read {s : Strictness} {n : Nat} {line : List Char} {b : Block}
    (h : read s n line = .ok (some b)) : b.Readable := by
  have lenient : read .lenient n line = .ok (some b) := by
    cases s with
    | strict => exact read_lenient_of_strict h
    | lenient => exact h
  rw [read_eq] at lenient
  cases given : codeWords line with
  | nil =>
      rw [given] at lenient
      cases lenient
  | cons command ws =>
      rw [given] at lenient
      cases lenient
      have first : command ∈ codeWords line := by
        rw [given]
        exact List.mem_cons_self
      exact readable_addLeniently (readable_bare first n) ws

end Line

/-! ## Reading the arguments of a text -/

section Argument

variable {e : Char × Float}

theorem isAlpha_toUpper (h : IsTidy e) : e.1.toUpper.isAlpha = true := by
  rw [Char.isAlpha_toUpper_eq_isAlpha, Char.isAlpha, h.letter, Bool.or_true]

/-- The text of an argument holds no blank and starts no comment. -/
theorem solid_argumentText (h : IsTidy e) :
    ∀ c ∈ Block.argumentText e, Text.isBlank c = false ∧ c ≠ ';' := by
  intro c mem
  rcases List.mem_cons.mp mem with rfl | number
  · refine ⟨Text.isBlank_of_isAlpha (isAlpha_toUpper h), fun comment => ?_⟩
    have letter := isAlpha_toUpper h
    rw [comment] at letter
    cases letter
  · rcases Number.mem_plain h.number c number with digit | rfl | rfl
    · have bounds := Number.toNat_of_isDigit digit
      refine ⟨Text.isBlank_of_visible (by omega) (by omega), ?_⟩
      rintro rfl
      cases digit
    · decide
    · decide

theorem isWord_argumentText (h : IsTidy e) : Text.IsWord (Block.argumentText e) where
  nonempty := List.cons_ne_nil _ _
  solid c mem := (solid_argumentText h c mem).1

theorem readArgument_argumentText (h : IsTidy e) :
    readArgument (Block.argumentText e) = .ok e := by
  have lower : e.1 = e.1.toUpper.toLower := by
    rw [Char.toLower_toUpper_eq_toLower, toLower_of_isLower h.letter]
  have parsed := Number.readFloat_plain h.number
  have given : Number.plain e.2 ≠ [] := by
    intro empty
    rw [empty] at parsed
    cases parsed
  exact readArgument_eq_ok_iff.mpr ⟨_, _, rfl, isAlpha_toUpper h, given, parsed, h.number, lower⟩

end Argument

/-- A letter above all others is bound at the end. -/
theorem insertEntry_of_above {k : Char} {v : Float} {entries : List (Char × Float)}
    (above : ∀ e ∈ entries, e.1 < k) : insertEntry k v entries = entries ++ [(k, v)] := by
  induction entries with
  | nil => rfl
  | cons first rest ih =>
      rw [List.forall_mem_cons] at above
      rw [insertEntry, if_neg above.1.not_gt, if_neg above.1.ne', ih above.2]
      rfl

theorem Block.ext_entries {b b' : Block} (command : b.command = b'.command)
    (entries : b.arguments.entries = b'.arguments.entries) (line : b.line = b'.line) : b = b' := by
  obtain ⟨_, ⟨_, _⟩, _⟩ := b
  obtain ⟨_, ⟨_, _⟩, _⟩ := b'
  dsimp only at command entries line
  subst command entries line
  rfl

namespace Line

/-- Arguments are added at the end if they ascend by their letters. -/
theorem addStrictly_argumentTexts {b : Block} {es : List (Char × Float)}
    (tidy : ∀ e ∈ es, IsTidy e)
    (ascending : (b.arguments.entries ++ es).Pairwise (·.1 < ·.1)) (n : Nat) :
    ∃ b', addStrictly n b (es.map Block.argumentText) = .ok b' ∧ b'.command = b.command ∧
      b'.arguments.entries = b.arguments.entries ++ es ∧ b'.line = b.line := by
  induction es generalizing b with
  | nil => exact ⟨b, rfl, rfl, (List.append_nil _).symm, rfl⟩
  | cons e es ih =>
      rw [List.forall_mem_cons] at tidy
      have above : ∀ e' ∈ b.arguments.entries, e'.1 < e.1 := fun e' mem =>
        (List.pairwise_append.mp ascending).2.2 e' mem e List.mem_cons_self
      have added : (b.withArgument e.1 e.2).arguments.entries = b.arguments.entries ++ [e] := by
        rw [← insertEntry_of_above above]
        exact congrArg (insertEntry · e.2 _) (toLower_of_isLower tidy.1.letter)
      have joined : b.arguments.entries ++ e :: es =
          (b.withArgument e.1 e.2).arguments.entries ++ es := by
        rw [added, List.append_assoc]
        rfl
      rw [joined] at ascending ⊢
      rw [List.map_cons, addStrictly_cons_of_ok (readArgument_argumentText tidy.1)]
      exact ih tidy.2 ascending

/-- The text of a block that was read has the words of the block. -/
theorem codeWords_text {b : Block} (h : b.Readable) :
    codeWords b.text.toList =
      b.command.toList :: b.arguments.entries.map Block.argumentText := by
  have joined : b.text.toList =
      b.command.toList ++ (b.arguments.entries.map Block.argumentText).flatMap (' ' :: ·) := by
    rw [Block.text, String.toList_append, String.toList_ofList, List.flatMap_map]
  have words : ∀ w ∈ b.arguments.entries.map Block.argumentText, Text.IsWord w := by
    intro w mem
    obtain ⟨e, inside, rfl⟩ := List.mem_map.mp mem
    exact isWord_argumentText (h.arguments e inside)
  have uncommented : ∀ c ∈ b.text.toList, decide (c ≠ ';') = true := by
    intro c mem
    refine decide_eq_true ?_
    rw [joined] at mem
    rcases List.mem_append.mp mem with command | arguments
    · exact fun comment => h.code (comment ▸ command)
    · obtain ⟨w, written, inside⟩ := List.mem_flatMap.mp arguments
      obtain ⟨e, entry, rfl⟩ := List.mem_map.mp written
      rcases List.mem_cons.mp inside with rfl | inside
      · decide
      · exact (solid_argumentText (h.arguments e entry) c inside).2
  rw [codeWords, code, List.takeWhile_eq_self_iff.mpr uncommented, joined,
    Text.words_spaced h.command words]

/-- **Printing undoes reading.** Whatever a line was read as, strictly or leniently, the text
of the block is read as the same block. -/
theorem read_text {s : Strictness} {n : Nat} {line : List Char} {b : Block}
    (h : read s n line = .ok (some b)) : read .strict b.line b.text.toList = .ok (some b) := by
  have readable := readable_of_read h
  obtain ⟨b', added, command, entries, number⟩ :=
    addStrictly_argumentTexts (b := .bare b.command b.line) readable.arguments
      b.arguments.ascending b.line
  have same : b' = b := Block.ext_entries command entries number
  rw [read_eq, codeWords_text readable]
  dsimp only
  rw [String.ofList_toList, added, same]
  rfl

/-- Mixed case, wide gaps, a letter given twice, a word that is no argument and a comment. -/
theorem read_text_of_untidy :
    ∃ b, read .lenient 7 "\tg1  y2.50 Y-1e-2 Foops x0.1 ;X9".toList = .ok (some b) ∧
      b.text = "g1 X0.1 Y-0.01" ∧ read .strict b.line b.text.toList = .ok (some b) := by
  have given : read .lenient 7 "\tg1  y2.50 Y-1e-2 Foops x0.1 ;X9".toList =
      .ok (some ⟨"g1", ⟨[('x', 0.1), ('y', -0.01)], by decide⟩, 7⟩) := by
    decide +kernel
  exact ⟨_, given, by decide +kernel, read_text given⟩

end Line

end PrintPath
