import Mathlib.Logic.Relation
import PrintPath.Proofs.Block.Letters

/-!
# The layout of a line

A line can be written in many ways: with more or other blanks, with another comment
or none, with a carriage return at its end, and, if all its arguments are well
formed, with the arguments in another order or with letters of the other case. Each
such change is one step of a relation, and no step changes what is read.
-/

namespace PrintPath

namespace Text

/-- Nothing but blanks. -/
def IsGap (cs : List Char) : Prop :=
  ∀ c ∈ cs, isBlank c = true

instance : DecidablePred IsGap := fun _ =>
  decidable_of_iff _ List.all_eq_true

section Gap

variable {g : List Char} (gap : IsGap g)

include gap

theorem words_gap_append (y : List Char) : words (g ++ y) = words y := by
  induction g with
  | nil => rfl
  | cons c g ih =>
      obtain ⟨blank, gap⟩ := List.forall_mem_cons.mp gap
      rw [List.cons_append, words_cons_blank blank, ih gap]

theorem words_append_gap (x : List Char) : words (x ++ g) = words x := by
  cases g with
  | nil => rw [List.append_nil]
  | cons c g =>
      obtain ⟨blank, gap⟩ := List.forall_mem_cons.mp gap
      rw [words_append_blank blank, words_eq_nil_iff.mpr gap, List.append_nil]

/-- A gap parts the words before it from those after it. -/
theorem words_append_gap_append (some : g ≠ []) (x y : List Char) :
    words (x ++ g ++ y) = words x ++ words y := by
  obtain ⟨c, g, rfl⟩ := List.exists_cons_of_ne_nil some
  obtain ⟨blank, gap⟩ := List.forall_mem_cons.mp gap
  rw [List.append_assoc, List.cons_append, words_append_blank blank, words_gap_append gap]

end Gap

end Text

namespace Line

open Text (IsGap IsWord)

/-! ## Changes to a line -/

/-- Nothing, or a semicolon and any text behind it. -/
def IsComment (cs : List Char) : Prop :=
  cs = [] ∨ cs.head? = some ';'

instance : DecidablePred IsComment := fun cs =>
  inferInstanceAs (Decidable (cs = [] ∨ cs.head? = some ';'))

/-- The letter of a word, in lower case. -/
def letterOf (word : List Char) : Option Char :=
  word.head?.map Char.toLower

/-- Two words that are one but for the case of the letter in front. -/
inductive SameButCase : List Char → List Char → Prop
  | mk {letter letter' : Char} (same : letter.toLower = letter'.toLower) (number : List Char) :
      SameButCase (letter :: number) (letter' :: number)

/-- A word of the code of a line. -/
structure IsCodeWord (word : List Char) : Prop where
  isWord : IsWord word
  clear : ';' ∉ word

instance : DecidablePred IsCodeWord := fun word =>
  decidable_of_iff (IsWord word ∧ ';' ∉ word) ⟨fun ⟨w, c⟩ => ⟨w, c⟩, fun h => ⟨h.isWord, h.clear⟩⟩

/-- An argument of a line, with the blanks before it. -/
structure IsSpaced (a : List Char × List Char) : Prop where
  gap : IsGap a.1
  apart : a.1 ≠ []
  word : IsCodeWord a.2
  argument : isArgument a.2 = true

instance : DecidablePred IsSpaced := fun a =>
  decidable_of_iff (IsGap a.1 ∧ a.1 ≠ [] ∧ IsCodeWord a.2 ∧ isArgument a.2 = true)
    ⟨fun ⟨g, s, w, r⟩ => ⟨g, s, w, r⟩, fun h => ⟨h.gap, h.apart, h.word, h.argument⟩⟩

/-- Some arguments as they stand on a line. -/
def spaced (args : List (List Char × List Char)) : List Char :=
  args.flatMap fun a => a.1 ++ a.2

/-- One change to the layout of a line. -/
inductive Rewrites : List Char → List Char → Prop
  /-- The line ends with a carriage return. -/
  | lineBreak (line : List Char) : Rewrites line (line ++ ['\r'])
  /-- The comment is replaced, added or removed. -/
  | comment (before c c' : List Char) : IsComment c → IsComment c' →
      Rewrites (before ++ c) (before ++ c')
  /-- The blanks between two parts of the line are replaced. -/
  | gap (before g g' after : List Char) : IsGap g → IsGap g' → g ≠ [] → g' ≠ [] →
      Rewrites (before ++ g ++ after) (before ++ g' ++ after)
  /-- There are more blanks at the start of the line. -/
  | start (g line : List Char) : IsGap g → Rewrites line (g ++ line)
  /-- There are more blanks at the end of the code. -/
  | finish (before g c : List Char) : IsGap g → IsComment c →
      Rewrites (before ++ c) (before ++ g ++ c)
  /-- The arguments, all of them well formed, stand in another order, but those of one
  letter in the same one. -/
  | order (command : List Char) (args args' : List (List Char × List Char)) :
      IsCodeWord command → (∀ a ∈ args, IsSpaced a) → (∀ a ∈ args', IsSpaced a) →
      (args.map Prod.snd).Perm (args'.map Prod.snd) →
      (∀ k, (args.map Prod.snd).filter (letterOf · == k) =
        (args'.map Prod.snd).filter (letterOf · == k)) →
      Rewrites (command ++ spaced args) (command ++ spaced args')
  /-- The arguments, all of them well formed, have letters of another case. -/
  | case (command : List Char) (args args' : List (List Char × List Char)) :
      IsCodeWord command → (∀ a ∈ args, IsSpaced a) → (∀ a ∈ args', IsSpaced a) →
      List.Forall₂ SameButCase (args.map Prod.snd) (args'.map Prod.snd) →
      Rewrites (command ++ spaced args) (command ++ spaced args')

/-- Lines that differ by any number of changes to their layout. -/
def SameLayout : List Char → List Char → Prop :=
  Relation.EqvGen Rewrites

/-! ## The words of a changed line -/

/-- A comment that is in the text already hides what follows; otherwise the code goes
on behind the text. -/
theorem code_append (x y : List Char) :
    code (x ++ y) = if ';' ∈ x then code x else x ++ code y := by
  unfold code
  rw [List.takeWhile_append]
  have whole : (x.takeWhile (· ≠ ';')).length = x.length ↔ ';' ∉ x := by
    constructor
    · intro length mem
      rw [← (List.takeWhile_sublist _).eq_of_length length] at mem
      simpa using List.mem_takeWhile_imp mem
    · intro clear
      rw [List.takeWhile_eq_self_iff.mpr]
      intro c mem
      exact decide_eq_true fun comment => clear (comment ▸ mem)
  by_cases clear : ';' ∈ x
  · rw [if_neg (whole.not.mpr (not_not.mpr clear)), if_pos clear]
  · rw [if_pos (whole.mpr clear), if_neg clear]

theorem code_of_clear {x : List Char} (clear : ';' ∉ x) : code x = x :=
  calc code x = code (x ++ []) := by rw [List.append_nil]
    _ = x ++ code [] := by rw [code_append, if_neg clear]
    _ = x := List.append_nil x

theorem not_mem_of_gap {g : List Char} (gap : IsGap g) : ';' ∉ g := by
  intro mem
  cases gap ';' mem

theorem code_of_comment {c : List Char} (h : IsComment c) : code c = [] := by
  rcases h with rfl | opened
  · rfl
  · obtain ⟨rest, rfl⟩ := List.head?_eq_some_iff.mp opened
    rfl

theorem codeWords_append_comment (before : List Char) {c : List Char} (h : IsComment c) :
    codeWords (before ++ c) = codeWords before := by
  unfold codeWords
  rw [code_append, code_of_comment h, List.append_nil]
  by_cases clear : ';' ∈ before
  · rw [if_pos clear]
  · rw [if_neg clear, code_of_clear clear]

theorem codeWords_gap_append {g : List Char} (gap : IsGap g) (line : List Char) :
    codeWords (g ++ line) = codeWords line := by
  unfold codeWords
  rw [code_append, if_neg (not_mem_of_gap gap), Text.words_gap_append gap]

theorem codeWords_append_gap {g : List Char} (gap : IsGap g) (line : List Char) :
    codeWords (line ++ g) = codeWords line := by
  unfold codeWords
  rw [code_append, code_of_clear (not_mem_of_gap gap)]
  by_cases clear : ';' ∈ line
  · rw [if_pos clear]
  · rw [if_neg clear, code_of_clear clear, Text.words_append_gap gap]

theorem codeWords_append_gap_append {g : List Char} (gap : IsGap g) (some : g ≠ [])
    (before after : List Char) :
    codeWords (before ++ g ++ after) =
      if ';' ∈ before then codeWords before else Text.words before ++ codeWords after := by
  unfold codeWords
  rw [List.append_assoc, code_append]
  by_cases clear : ';' ∈ before
  · rw [if_pos clear, if_pos clear]
  · rw [if_neg clear, if_neg clear, code_append, if_neg (not_mem_of_gap gap), ← List.append_assoc,
      Text.words_append_gap_append gap some]

/-- A command and spaced arguments are read as they are. -/
theorem codeWords_spaced {command : List Char} {args : List (List Char × List Char)}
    (first : IsCodeWord command) (others : ∀ a ∈ args, IsSpaced a) :
    codeWords (command ++ spaced args) = command :: args.map Prod.snd := by
  induction args generalizing command with
  | nil =>
      unfold codeWords
      rw [spaced, List.flatMap_nil, List.append_nil, code_of_clear first.clear,
        Text.words_of_isWord first.isWord]
      rfl
  | cons a args ih =>
      obtain ⟨space, others⟩ := List.forall_mem_cons.mp others
      have text : command ++ spaced (a :: args) = command ++ a.1 ++ (a.2 ++ spaced args) := by
        simp [spaced]
      rw [text, codeWords_append_gap_append space.gap space.apart, if_neg first.clear,
        Text.words_of_isWord first.isWord, ih space.word others]
      rfl

/-! ## The arguments of a changed line -/

theorem readArgument_of_sameButCase {word word' : List Char} (h : SameButCase word word') :
    readArgument word = readArgument word' := by
  cases h with
  | @mk letter letter' same number =>
      have alpha : letter.isAlpha = letter'.isAlpha := by
        rw [← Char.isAlpha_toLower_eq_isAlpha letter, same, Char.isAlpha_toLower_eq_isAlpha]
      unfold readArgument
      dsimp only
      rw [alpha, same]

theorem values_of_sameButCase {ws ws' : List (List Char)} (h : List.Forall₂ SameButCase ws ws')
    (k : Char) : values k ws = values k ws' := by
  induction h with
  | nil => rfl
  | cons first rest ih =>
      have same := readArgument_of_sameButCase first
      cases given : readArgument _ with
      | ok argument =>
          rw [values_cons_of_ok given, values_cons_of_ok (same ▸ given), ih]
      | error defect =>
          rw [values_cons_of_error given, values_cons_of_error (same ▸ given), ih]

/-- The values of a letter are those of the words with that letter. -/
theorem values_filter (k : Char) (ws : List (List Char)) :
    values k (ws.filter (letterOf · == some k)) = values k ws := by
  induction ws with
  | nil => rfl
  | cons word ws ih =>
      by_cases own : letterOf word = some k
      · rw [List.filter_cons_of_pos (by simpa using own)]
        cases given : readArgument word with
        | ok argument => rw [values_cons_of_ok given, values_cons_of_ok given, ih]
        | error defect => rw [values_cons_of_error given, values_cons_of_error given, ih]
      · rw [List.filter_cons_of_neg (by simpa using own), ih]
        cases given : readArgument word with
        | error defect => rw [values_cons_of_error given]
        | ok argument =>
            obtain ⟨letter, number, rfl, -, -, -, -, lower⟩ := readArgument_eq_ok_iff.mp given
            rw [values_cons_of_ok given, if_neg]
            rintro rfl
            exact own (congrArg some lower.symm)

theorem values_of_order {ws ws' : List (List Char)}
    (h : ∀ k, ws.filter (letterOf · == k) = ws'.filter (letterOf · == k)) (k : Char) :
    values k ws = values k ws' := by
  rw [← values_filter, h, values_filter]

/-! ## Reading a changed line -/

theorem forall_isArgument {args : List (List Char × List Char)} (h : ∀ a ∈ args, IsSpaced a) :
    ∀ w ∈ args.map Prod.snd, isArgument w = true := by
  intro w mem
  obtain ⟨a, inside, rfl⟩ := List.mem_map.mp mem
  exact (h a inside).argument

/-- No change to the layout of a line changes what is read. -/
theorem read_of_rewrites {line line' : List Char} (h : Rewrites line line') (s : Strictness)
    (n : Nat) : read s n line = read s n line' := by
  cases h with
  | lineBreak =>
      have blank : IsGap ['\r'] := by decide
      exact read_congr (codeWords_append_gap blank line).symm s n
  | comment before c c' old new =>
      exact read_congr (by rw [codeWords_append_comment before old,
        codeWords_append_comment before new]) s n
  | gap before g g' after old new some some' =>
      exact read_congr (by rw [codeWords_append_gap_append old some,
        codeWords_append_gap_append new some']) s n
  | start g _ gap => exact read_congr (codeWords_gap_append gap line).symm s n
  | finish before g c gap comment =>
      exact read_congr (by rw [codeWords_append_comment before comment,
        codeWords_append_comment _ comment, codeWords_append_gap gap]) s n
  | order command args args' first old new _ order =>
      exact read_of_values (codeWords_spaced first old) (codeWords_spaced first new)
        (forall_isArgument old) (forall_isArgument new) (values_of_order order) s n
  | case command args args' first old new cases =>
      exact read_of_values (codeWords_spaced first old) (codeWords_spaced first new)
        (forall_isArgument old) (forall_isArgument new) (values_of_sameButCase cases) s n

theorem read_of_sameLayout {line line' : List Char} (h : SameLayout line line') (s : Strictness)
    (n : Nat) : read s n line = read s n line' := by
  induction h with
  | rel line line' step => exact read_of_rewrites step s n
  | refl line => rfl
  | symm line line' _ ih => exact ih.symm
  | trans line line' line'' _ _ first second => exact first.trans second

end Line

end PrintPath
