import PrintPath.Proofs.Block.Layout
import PrintPath.Proofs.Number.Decimal
import PrintPath.Proofs.Number.Literal

/-!
# The grammar of a line

What a line is read as, told without the way it is scanned: a comment is cut off, the
rest falls into words, the first word is the command, and every other word has to be a
letter with a literal of a finite number. The reader gives exactly what the grammar
says, also where it refuses a line.
-/

namespace PrintPath

/-! ## Words -/

namespace Text

/-- The words of a text. What follows a word is blank or the end. -/
inductive HasWords : List Char → List (List Char) → Prop
  | none {gap : List Char} : IsGap gap → HasWords gap []
  | cons {gap word rest : List Char} {ws : List (List Char)} : IsGap gap → IsWord word →
      (∀ c ∈ rest.head?, isBlank c = true) → HasWords rest ws →
      HasWords (gap ++ (word ++ rest)) (word :: ws)

theorem HasWords.words_eq {cs : List Char} {ws : List (List Char)} (h : HasWords cs ws) :
    words cs = ws := by
  induction h with
  | none gap => exact words_eq_nil_iff.mpr gap
  | @cons gap word rest ws blank solid apart _ ih =>
      rw [words_gap_append blank]
      cases rest with
      | nil => rw [List.append_nil, words_of_isWord solid, ← ih, words_nil]
      | cons c rest =>
          have blank : isBlank c = true := apart c rfl
          rw [words_append_blank blank, words_of_isWord solid, ← ih, words_cons_blank blank]
          rfl

/-- Every text has words. -/
theorem exists_hasWords (cs : List Char) : ∃ ws, HasWords cs ws := by
  induction length : cs.length using Nat.strong_induction_on generalizing cs with
  | h n ih =>
      have gap : IsGap (cs.takeWhile isBlank) := fun c mem => List.mem_takeWhile_imp mem
      have parts := List.takeWhile_append_dropWhile (p := isBlank) (l := cs)
      cases left : cs.dropWhile isBlank with
      | nil =>
          rw [left, List.append_nil] at parts
          exact ⟨[], parts ▸ .none gap⟩
      | cons c rest =>
          have solid : (!isBlank c) = true := by
            simpa [left] using List.head?_dropWhile_not isBlank cs
          have word : IsWord ((c :: rest).takeWhile (!isBlank ·)) := by
            refine ⟨?_, fun c mem => by simpa using List.mem_takeWhile_imp mem⟩
            rw [List.takeWhile_cons_of_pos (p := (!isBlank ·)) solid]
            exact List.cons_ne_nil _ _
          have apart : ∀ b ∈ ((c :: rest).dropWhile (!isBlank ·)).head?, isBlank b = true := by
            intro b first
            have stop := List.head?_dropWhile_not (!isBlank ·) (c :: rest)
            rw [Option.mem_def.mp first] at stop
            simpa using stop
          have shorter : ((c :: rest).dropWhile (!isBlank ·)).length < n := by
            rw [List.dropWhile_cons_of_pos (p := (!isBlank ·)) solid]
            have less := (List.dropWhile_sublist (!isBlank ·) (l := rest)).length_le
            have whole := congrArg List.length parts
            rw [left, List.length_append, List.length_cons, length] at whole
            omega
          obtain ⟨ws, later⟩ := ih _ shorter _ rfl
          have built := HasWords.cons gap word apart later
          rw [List.takeWhile_append_dropWhile, ← left, parts] at built
          exact ⟨_, built⟩

theorem words_eq_iff {cs : List Char} {ws : List (List Char)} :
    words cs = ws ↔ HasWords cs ws := by
  refine ⟨?_, HasWords.words_eq⟩
  rintro rfl
  obtain ⟨ws, h⟩ := exists_hasWords cs
  rwa [h.words_eq]

end Text

/-! ## Arguments -/

namespace Line

/-- A word that is an argument, with its letter and its number. The number has to be
within the doubles. -/
inductive Accepts : List Char → Char → Float → Prop
  | mk {letter : Char} {number : List Char} {negative : Bool} {d : Number.Decimal} :
      letter.isAlpha = true → Number.Literal number negative d → d.value < Number.overflow →
      Accepts (letter :: number) letter.toLower (Number.withSign negative d.toFloat)

/-- A word that is no argument, with the reason. -/
inductive Rejects : List Char → String → Prop
  | noLetter {word : List Char} : (∀ c ∈ word.head?, c.isAlpha = false) →
      Rejects word "argument must start with a letter"
  | noValue {letter : Char} : letter.isAlpha = true →
      Rejects [letter] "missing numeric value"
  | notANumber {letter : Char} {number : List Char} : letter.isAlpha = true → number ≠ [] →
      (∀ negative d, ¬ Number.Literal number negative d) → ¬ Number.IsSignedName number →
      Rejects (letter :: number) "invalid float literal"
  | overflow {letter : Char} {number : List Char} {negative : Bool} {d : Number.Decimal} :
      letter.isAlpha = true → Number.Literal number negative d → Number.overflow ≤ d.value →
      Rejects (letter :: number) "value is not finite"
  | name {letter : Char} {number : List Char} : letter.isAlpha = true →
      Number.IsSignedName number → Rejects (letter :: number) "value is not finite"

/-! ## Lines -/

/-- The words of a line, without those of its comment. -/
def HasCodeWords (line : List Char) (ws : List (List Char)) : Prop :=
  ∃ code comment, line = code ++ comment ∧ ';' ∉ code ∧ IsComment comment ∧
    Text.HasWords code ws

/-- The value of a letter among some arguments: that of the last one with this letter. -/
def LastValue (args : List (List Char)) (letter : Char) (v : Float) : Prop :=
  ∃ before word after, args = before ++ word :: after ∧ Accepts word letter v ∧
    ∀ w ∈ after, ∀ v', ¬ Accepts w letter v'

/-- What a line with number `n` is read as. -/
inductive Reads (n : Nat) (line : List Char) : Except Fault (Option Block) → Prop
  | blank : HasCodeWords line [] → Reads n line (.ok none)
  | block {command : List Char} {args : List (List Char)} {b : Block} :
      HasCodeWords line (command :: args) → (∀ w ∈ args, ∃ letter v, Accepts w letter v) →
      b.command = String.ofList command → b.line = n →
      (∀ letter v, b.arguments.get? letter = some v ↔ LastValue args letter v) →
      Reads n line (.ok (some b))
  | malformed {command word : List Char} {before after : List (List Char)} {defect : Defect} :
      HasCodeWords line (command :: (before ++ word :: after)) →
      (∀ w ∈ before, ∃ letter v, Accepts w letter v) → Rejects word defect.message →
      Reads n line (.error (.malformedArgument n (String.ofList word) defect))

/-! ## Reading an argument -/

theorem accepts_iff {word : List Char} {letter : Char} {v : Float} :
    Accepts word letter v ↔ readArgument word = .ok (letter, v) := by
  rw [readArgument_eq_ok_iff]
  constructor
  · rintro ⟨alpha, literal, below⟩
    refine ⟨_, _, rfl, alpha, literal.ne_nil, Number.readFloat_of_literal literal, ?_, rfl⟩
    rw [Number.isFinite_withSign, Number.isFinite_toFloat_iff]
    exact below
  · rintro ⟨letter, number, rfl, alpha, -, read, finite, rfl⟩
    rcases Number.literal_or_name read with ⟨negative, d, literal, rfl⟩ | name
    · rw [Number.isFinite_withSign, Number.isFinite_toFloat_iff] at finite
      exact .mk alpha literal finite
    · obtain ⟨x, read', infinite⟩ := Number.readFloat_of_signedName name
      obtain rfl := Option.some.inj (read.symm.trans read')
      rw [infinite] at finite
      cases finite

section Alpha

variable {letter : Char} {number : List Char} (alpha : letter.isAlpha = true)

include alpha

theorem readArgument_letter : readArgument [letter] = .error .noValue := by
  unfold readArgument
  dsimp only
  rw [alpha, if_neg (by decide), if_pos rfl]

theorem readArgument_of_none (given : number ≠ []) (read : Number.readFloat number = none) :
    readArgument (letter :: number) = .error .notANumber := by
  unfold readArgument
  dsimp only
  rw [alpha, if_neg (by decide), if_neg given, read]

theorem readArgument_of_infinite {v : Float} (given : number ≠ [])
    (read : Number.readFloat number = some v) (infinite : v.isFinite = false) :
    readArgument (letter :: number) = .error .notFinite := by
  unfold readArgument
  dsimp only
  rw [alpha, if_neg (by decide), if_neg given, read]
  dsimp only
  rw [infinite, if_neg (by decide)]

end Alpha

theorem exists_defect_of_rejects {word : List Char} {reason : String} (h : Rejects word reason) :
    ∃ defect, readArgument word = .error defect ∧ defect.message = reason := by
  cases h with
  | noLetter other =>
      refine ⟨.noLetter, ?_, rfl⟩
      cases word with
      | nil => rfl
      | cons c rest =>
          unfold readArgument
          dsimp only
          rw [other c rfl, if_pos (by decide)]
  | noValue alpha => exact ⟨.noValue, readArgument_letter alpha, rfl⟩
  | notANumber alpha given noLiteral noName =>
      refine ⟨.notANumber, readArgument_of_none alpha given ?_, rfl⟩
      refine Option.eq_none_iff_forall_ne_some.mpr fun v read => ?_
      rcases Number.literal_or_name read with ⟨negative, d, literal, -⟩ | name
      · exact noLiteral negative d literal
      · exact noName name
  | overflow alpha literal beyond =>
      refine ⟨.notFinite, readArgument_of_infinite alpha literal.ne_nil
        (Number.readFloat_of_literal literal) ?_, rfl⟩
      rw [Number.isFinite_withSign, Bool.eq_false_iff, Ne, Number.isFinite_toFloat_iff, not_lt]
      exact beyond
  | name alpha name =>
      obtain ⟨x, read, infinite⟩ := Number.readFloat_of_signedName name
      exact ⟨.notFinite, readArgument_of_infinite alpha name.ne_nil read infinite, rfl⟩

/-- The grammar leaves no word out. -/
theorem accepts_or_rejects (word : List Char) :
    (∃ letter v, Accepts word letter v) ∨ ∃ reason, Rejects word reason := by
  cases word with
  | nil => exact Or.inr ⟨_, .noLetter nofun⟩
  | cons letter number =>
      cases alpha : letter.isAlpha with
      | false =>
          refine Or.inr ⟨_, .noLetter fun c first => ?_⟩
          cases first
          exact alpha
      | true =>
          by_cases literal : ∃ negative d, Number.Literal number negative d
          · obtain ⟨negative, d, literal⟩ := literal
            rcases lt_or_ge d.value Number.overflow with below | beyond
            · exact Or.inl ⟨_, _, .mk alpha literal below⟩
            · exact Or.inr ⟨_, .overflow alpha literal beyond⟩
          · push Not at literal
            by_cases name : Number.IsSignedName number
            · exact Or.inr ⟨_, .name alpha name⟩
            · cases number with
              | nil => exact Or.inr ⟨_, .noValue alpha⟩
              | cons c rest =>
                  exact Or.inr ⟨_, .notANumber alpha (List.cons_ne_nil c rest) literal name⟩

/-- A word is refused for the reason that the grammar gives. -/
theorem rejects_iff {word : List Char} {reason : String} :
    Rejects word reason ↔
      ∃ defect, readArgument word = .error defect ∧ defect.message = reason := by
  refine ⟨exists_defect_of_rejects, ?_⟩
  rintro ⟨defect, read, rfl⟩
  -- The grammar has some answer for the word, and the reader agrees with it.
  rcases accepts_or_rejects word with ⟨letter, v, accepted⟩ | ⟨reason, rejected⟩
  · rw [accepts_iff.mp accepted] at read
    cases read
  · obtain ⟨defect', read', message⟩ := exists_defect_of_rejects rejected
    rw [read] at read'
    cases read'
    rwa [message]

theorem message_injective {d d' : Defect} (h : d.message = d'.message) : d = d' := by
  revert h
  cases d <;> cases d' <;> decide

theorem rejects_message_iff {word : List Char} {defect : Defect} :
    Rejects word defect.message ↔ readArgument word = .error defect := by
  rw [rejects_iff]
  constructor
  · rintro ⟨other, read, same⟩
    rwa [← message_injective same]
  · intro read
    exact ⟨defect, read, rfl⟩

theorem isArgument_iff_accepts {word : List Char} :
    isArgument word = true ↔ ∃ letter v, Accepts word letter v := by
  simp only [isArgument_eq_true_iff, accepts_iff]

/-! ## Reading a line -/

theorem codeWords_eq_iff {line : List Char} {ws : List (List Char)} :
    codeWords line = ws ↔ HasCodeWords line ws := by
  constructor
  · intro h
    refine ⟨code line, line.dropWhile (· ≠ ';'), ?_, ?_, ?_, Text.words_eq_iff.mp h⟩
    · exact List.takeWhile_append_dropWhile.symm
    · intro mem
      simpa using List.mem_takeWhile_imp mem
    · cases left : line.dropWhile (· ≠ ';') with
      | nil => exact Or.inl rfl
      | cons c rest =>
          have stop := List.head?_dropWhile_not (· ≠ ';') line
          rw [left] at stop
          exact Or.inr (congrArg some (by simpa using stop))
  · rintro ⟨before, comment, rfl, clear, hidden, words⟩
    rw [codeWords_append_comment before hidden, codeWords, code_of_clear clear]
    exact words.words_eq

/-- The last argument, if it has the letter, is the one that counts. -/
theorem lastValue_concat {args : List (List Char)} {word : List Char} {letter : Char}
    {v : Float} : LastValue (args ++ [word]) letter v ↔
      Accepts word letter v ∨ (∀ v', ¬ Accepts word letter v') ∧ LastValue args letter v := by
  constructor
  · rintro ⟨before, own, after, split, accepted, none⟩
    rcases List.eq_nil_or_concat after with rfl | ⟨after, last, rfl⟩
    · obtain ⟨-, same⟩ := List.append_inj' split rfl
      rw [List.singleton_inj.mp same]
      exact Or.inl accepted
    · rw [List.concat_eq_append, ← List.cons_append, ← List.append_assoc] at split
      obtain ⟨rfl, same⟩ := List.append_inj' split rfl
      rw [List.singleton_inj.mp same]
      rw [List.concat_eq_append] at none
      exact Or.inr ⟨none last (by simp),
        before, own, after, rfl, accepted, fun w mem => none w (by simp [mem])⟩
  · rintro (accepted | ⟨silent, before, own, after, rfl, accepted, none⟩)
    · exact ⟨args, word, [], rfl, accepted, nofun⟩
    · refine ⟨before, own, after ++ [word], by simp, accepted, fun w mem => ?_⟩
      rcases List.mem_append.mp mem with earlier | last
      · exact none w earlier
      · rwa [List.mem_singleton.mp last]

/-- The last value of a letter is that of the last argument with the letter. -/
theorem getLast?_values_iff {args : List (List Char)} {letter : Char} {v : Float} :
    (values letter args).getLast? = some v ↔ LastValue args letter v := by
  induction args using List.reverseRecOn with
  | nil => simp [values, LastValue]
  | append_singleton args word ih =>
      have split : values letter (args ++ [word]) = values letter args ++ values letter [word] :=
        List.filterMap_append
      have silent : values letter [] = [] := rfl
      rw [split, lastValue_concat, ← ih]
      simp only [accepts_iff]
      cases given : readArgument word with
      | error defect =>
          rw [values_cons_of_error given, silent]
          simp
      | ok argument =>
          obtain ⟨own, value⟩ := argument
          rw [values_cons_of_ok given, silent]
          by_cases same : own = letter
          · rw [if_pos same, List.getLast?_concat]
            simp [same]
          · rw [if_neg same, List.append_nil]
            simp [same]

theorem get?_addLeniently_bare (command : String) (n : Nat) (args : List (List Char))
    (letter : Char) (v : Float) :
    (addLeniently (.bare command n) args).arguments.get? letter = some v ↔
      LastValue args letter v := by
  rw [get?_addLeniently, Block.bare, Arguments.get?_empty, Option.or_none, getLast?_values_iff]

/-- A block is determined by what the grammar says of it. -/
theorem eq_addLeniently {command : String} {n : Nat} {args : List (List Char)} {b : Block}
    (first : b.command = command) (number : b.line = n)
    (last : ∀ letter v, b.arguments.get? letter = some v ↔ LastValue args letter v) :
    addLeniently (.bare command n) args = b := by
  have arguments : (addLeniently (.bare command n) args).arguments = b.arguments := by
    refine Arguments.ext_get? fun letter => Option.ext fun v => ?_
    rw [get?_addLeniently_bare, last]
  refine Block.ext_entries ?_ (congrArg Arguments.entries arguments) ?_
  · rw [command_addLeniently, first]
    rfl
  · rw [line_addLeniently, number]
    rfl

/-- Arguments are added exactly if all of them are well formed. -/
theorem addStrictly_eq_ok_iff {n : Nat} {b b' : Block} {args : List (List Char)} :
    addStrictly n b args = .ok b' ↔
      (∀ w ∈ args, isArgument w = true) ∧ addLeniently b args = b' := by
  induction args generalizing b with
  | nil => simp [addStrictly, addLeniently, pure, Except.pure]
  | cons word rest ih =>
      rw [List.forall_mem_cons]
      cases given : readArgument word with
      | ok argument =>
          have good := isArgument_eq_true_iff.mpr ⟨_, _, given⟩
          rw [addStrictly_cons_of_ok given, addLeniently_cons_of_ok given, ih]
          simp [good]
      | error defect =>
          have bad := isArgument_eq_false_iff.mpr ⟨defect, given⟩
          rw [addStrictly_cons_of_error given]
          simp [bad]

/-- What is read is in the grammar. -/
theorem reads_read (n : Nat) (line : List Char) : Reads n line (read .strict n line) := by
  rw [read_eq]
  cases words : codeWords line with
  | nil => exact .blank (codeWords_eq_iff.mp words)
  | cons command args =>
      dsimp only
      cases added : addStrictly n (.bare (String.ofList command) n) args with
      | ok b =>
          obtain ⟨fine, rfl⟩ := addStrictly_eq_ok_iff.mp added
          exact .block (codeWords_eq_iff.mp words)
            (fun w mem => isArgument_iff_accepts.mp (fine w mem)) (command_addLeniently _ args)
            (line_addLeniently _ args) (get?_addLeniently_bare _ n args)
      | error fault =>
          obtain ⟨before, word, after, defect, rfl, fine, bad, rfl⟩ :=
            addStrictly_eq_error_iff.mp added
          exact .malformed (codeWords_eq_iff.mp words)
            (fun w mem => isArgument_iff_accepts.mp (fine w mem)) (rejects_message_iff.mpr bad)

/-- The grammar says no more than one thing of a line. -/
theorem read_of_reads {n : Nat} {line : List Char} {r : Except Fault (Option Block)}
    (h : Reads n line r) : read .strict n line = r := by
  cases h with
  | blank words =>
      rw [read_eq, codeWords_eq_iff.mpr words]
  | block words fine command number last =>
      rw [read_eq, codeWords_eq_iff.mpr words]
      dsimp only
      rw [addStrictly_of_forall fun w mem => isArgument_iff_accepts.mpr (fine w mem),
        eq_addLeniently command number last]
      rfl
  | @malformed command word before after defect words fine bad =>
      refine read_strict_eq_error_iff.mpr ⟨before, word, after, defect, ?_, fun w mem => ?_,
        rejects_message_iff.mp bad, rfl⟩
      · rw [arguments, codeWords_eq_iff.mpr words]
        rfl
      · exact isArgument_iff_accepts.mpr (fine w mem)

/-- **A line is read by the grammar.** Whatever the line, the reader gives a block, nothing
or a fault exactly as the grammar does. -/
theorem read_eq_iff_reads (n : Nat) (line : List Char) (r : Except Fault (Option Block)) :
    read .strict n line = r ↔ Reads n line r := by
  constructor
  · rintro rfl
    exact reads_read n line
  · exact read_of_reads

end Line

end PrintPath
