import PrintPath.Proofs.Document.Escape
import PrintPath.Proofs.Text.Words
import PrintPath.Toml.Text
import PrintPath.Toml.Writer

/-!
# Reading written TOML text

A text is written as a string on one line, or over several lines if it has a line feed,
and a name as a bare key. Both are read back as they were, up to what may follow them.
-/

namespace PrintPath.Toml

open Document (Escapes)

/-! ## Escapes -/

/-- A character in a string has one of the three forms. A line feed in a string over
several lines stands for itself without being plain. -/
theorem escapes {keep : Bool} {c : Char} (h : keep = true → c ≠ '\n') :
    Escapes simpleEscape? isPlain c (escape keep c) := by
  unfold escape
  split_ifs with backspace tab line kept feed return' quote backslash control
  · subst backspace; exact .letter rfl
  · subst tab; exact .letter rfl
  · exact absurd line (h kept)
  · subst line; exact .letter rfl
  · subst feed; exact .letter rfl
  · subst return'; exact .letter rfl
  · subst quote; exact .letter rfl
  · subst backslash; exact .letter rfl
  · have small : c.toNat < 256 := by
      rcases control with low | rfl
      · omega
      · decide
    refine .code (Scanner.ofHex?_toNat (by decide) (fun n => ?_) small)
    rw [hexDigit, hexDigit, Nat.mod_mod]
  · obtain ⟨high, delete⟩ := not_or.mp control
    have plain : isPlain c = true := by simp [isPlain, delete, Nat.not_lt.mp high]
    exact .itself quote backslash plain

/-- No letter behind a backslash is the rest of a line. -/
theorem endsLine_of_letter {c l : Char} (given : simpleEscape? l = some c) (rest : List Char) :
    endsLine (l :: rest) = false := by
  unfold simpleEscape? at given
  split at given
  all_goals first | rfl | cases given

section Escapes

variable {c : Char} {text : List Char} (h : Escapes simpleEscape? isPlain c text)

include h

theorem basic_of_escapes (rest : List Char) :
    basic (text ++ rest) = (basic rest).map (consTo c) := by
  cases h with
  | @letter l given =>
      have other : l ≠ 'u' ∧ l ≠ 'U' := by
        constructor <;> (rintro rfl; cases given)
      rw [List.cons_append, List.singleton_append, basic, given]
      · cases basic rest <;> rfl
      · exact fun _ _ _ _ _ same => absurd same other.1
      · exact fun _ _ _ _ _ _ _ _ _ same => absurd same other.2
  | @code a b given =>
      have text : ['\\', 'u', '0', '0', a, b] ++ rest =
        '\\' :: 'u' :: '0' :: '0' :: a :: b :: rest := rfl
      rw [text, basic, Scanner.codePoint?_of_ofHex? given]
      cases basic rest <;> rfl
  | itself quote backslash plain =>
      rw [List.singleton_append, basic, if_pos plain]
      -- What the reader takes before plain characters starts with a quote or a backslash.
      all_goals (intros; contradiction)

theorem longBasic_of_escapes (rest : List Char) :
    longBasic false (text ++ rest) = (longBasic false rest).map (consTo c) := by
  cases h with
  | @letter l given =>
      have other : l ≠ 'u' ∧ l ≠ 'U' := by
        constructor <;> (rintro rfl; cases given)
      rw [List.cons_append, List.singleton_append, longBasic,
        if_neg (by simp [endsLine_of_letter given]), given]
      · cases longBasic false rest <;> rfl
      · exact fun _ _ _ _ _ same => absurd same other.1
      · exact fun _ _ _ _ _ _ _ _ _ same => absurd same other.2
  | @code a b given =>
      have text : ['\\', 'u', '0', '0', a, b] ++ rest =
        '\\' :: 'u' :: '0' :: '0' :: a :: b :: rest := rfl
      rw [text, longBasic, Scanner.codePoint?_of_ofHex? given]
      cases longBasic false rest <;> rfl
  | itself quote backslash plain =>
      have noLine : c ≠ '\n' := by
        rintro rfl
        cases plain
      have noReturn : c ≠ '\r' := by
        rintro rfl
        cases plain
      rw [List.singleton_append, longBasic, if_pos plain]
      all_goals (intros; contradiction)

end Escapes

/-! ## Strings -/

theorem basic_flatMap_escape (cs rest : List Char) :
    basic (cs.flatMap (escape false) ++ '"' :: rest) = some (cs, rest) := by
  induction cs with
  | nil => rfl
  | cons c cs ih =>
      rw [List.flatMap_cons, List.append_assoc, basic_of_escapes (@escapes false c nofun), ih]
      rfl

/-- The closing quotes are the last three only if no quote follows them. -/
theorem longBasic_flatMap_escape (cs : List Char) {rest : List Char} (apart : '"' ∉ rest.head?) :
    longBasic false (cs.flatMap (escape true) ++ '"' :: '"' :: '"' :: rest) = some (cs, rest) := by
  induction cs with
  | nil =>
      rw [List.flatMap_nil, List.nil_append, longBasic]
      · rintro _ rfl
        exact apart rfl
      · rintro _ rfl
        exact apart rfl
  | cons c cs ih =>
      rw [List.flatMap_cons, List.append_assoc]
      by_cases line : c = '\n'
      · subst line
        have kept : escape true '\n' = ['\n'] := by decide
        rw [kept, List.singleton_append, longBasic, ih]
        · rfl
        · exact nofun
      · rw [longBasic_of_escapes (escapes fun _ => line), ih]
        rfl

theorem string_of_basic {cs : List Char} (h : ∀ rest, cs ≠ '"' :: '"' :: rest) :
    string ('"' :: cs) = (basic cs).map fun r => (String.ofList r.1, r.2) := by
  unfold string
  split
  · next rest same => exact absurd (List.cons.inj same).2 (h rest)
  · next same => exact absurd (List.cons.inj same).1 (by decide)
  · next rest _ same =>
      rw [← (List.cons.inj same).2]
      cases basic cs <;> rfl
  · next same => exact absurd (List.cons.inj same).1 (by decide)
  · next other _ => exact (other cs rfl).elim

theorem Escapes.head?_ne_quote {letter? : Char → Option Char} {plain : Char → Bool} {c : Char}
    {text : List Char} (h : Escapes letter? plain c text) : ∃ f t, text = f :: t ∧ f ≠ '"' := by
  cases h with
  | letter => exact ⟨_, _, rfl, by decide⟩
  | code => exact ⟨_, _, rfl, by decide⟩
  | itself quote => exact ⟨_, _, rfl, quote⟩

theorem string_quote (s : String) {rest : List Char} (apart : '"' ∉ rest.head?) :
    string (quote s.toList ++ rest) = some (s, rest) := by
  have text : quote s.toList ++ rest = '"' :: (s.toList.flatMap (escape false) ++ '"' :: rest) := by
    simp [quote]
  have short : ∀ more, s.toList.flatMap (escape false) ++ '"' :: rest ≠ '"' :: '"' :: more := by
    intro more same
    cases given : s.toList with
    | nil =>
        rw [given] at same
        exact apart (by simp [(List.cons.inj same).2])
    | cons c cs =>
        obtain ⟨f, t, text, other⟩ := Escapes.head?_ne_quote (@escapes false c nofun)
        rw [given, List.flatMap_cons, text] at same
        exact other (List.cons.inj same).1
  rw [text, string_of_basic short, basic_flatMap_escape]
  exact congrArg (fun s => some (s, rest)) String.ofList_toList

theorem string_longQuote (s : String) {rest : List Char} (apart : '"' ∉ rest.head?) :
    string (longQuote s.toList ++ rest) = some (s, rest) := by
  have text : longQuote s.toList ++ rest =
      '"' :: '"' :: '"' :: '\n' ::
        (s.toList.flatMap (escape true) ++ '"' :: '"' :: '"' :: rest) := by
    simp [longQuote]
  rw [text]
  unfold string
  simp [dropLineBreak, lineBreak?, longBasic_flatMap_escape _ apart]

/-! ## Keys -/

/-- A name that is written as it is. -/
structure IsBare (name : String) : Prop where
  some : name.toList ≠ []
  bare : ∀ c ∈ name.toList, isBareKey c = true

instance (name : String) : Decidable (IsBare name) :=
  decidable_of_iff (name.toList ≠ [] ∧ name.toList.all isBareKey = true)
    ⟨fun h => ⟨h.1, List.all_eq_true.mp h.2⟩, fun h => ⟨h.some, List.all_eq_true.mpr h.bare⟩⟩

theorem ne_of_isBareKey {c d : Char} (bare : isBareKey c = true) (other : isBareKey d = false) :
    c ≠ d := by
  rintro rfl
  rw [bare] at other
  cases other

theorem isSpace_of_isBareKey {c : Char} (bare : isBareKey c = true) : isSpace c = false := by
  have blank : c ≠ ' ' := ne_of_isBareKey bare (by decide)
  have tab : c ≠ '\t' := ne_of_isBareKey bare (by decide)
  simp [isSpace, blank, tab]

section Key

variable {name : String} (h : IsBare name) {rest : List Char}

include h

theorem IsBare.exists_cons : ∃ c cs, name.toList = c :: cs ∧ isBareKey c = true := by
  obtain ⟨c, cs, text⟩ := List.exists_cons_of_ne_nil h.some
  exact ⟨c, cs, text, h.bare c (by simp [text])⟩

theorem skip_append_of_isBare : skip (name.toList ++ rest) = name.toList ++ rest := by
  obtain ⟨c, cs, text, bare⟩ := h.exists_cons
  rw [text]
  exact List.dropWhile_cons_of_neg (by simp [isSpace_of_isBareKey bare])

theorem simpleKey_of_isBare (apart : ∀ c ∈ rest.head?, isBareKey c = false) :
    simpleKey (name.toList ++ rest) = some (name, rest) := by
  obtain ⟨c, cs, text, bare⟩ := h.exists_cons
  unfold simpleKey
  split
  · next same =>
      rw [text] at same
      exact absurd (List.cons.inj same).1 (ne_of_isBareKey bare (by decide))
  · next same =>
      rw [text] at same
      exact absurd (List.cons.inj same).1 (ne_of_isBareKey bare (by decide))
  · dsimp only
    rw [Text.takeWhile_run h.bare apart, Text.dropWhile_run h.bare apart, if_neg h.some,
      String.ofList_toList]

/-- A bare key ends where no further part of a dotted key follows. -/
theorem key_of_isBare (apart : ∀ c ∈ rest.head?, isBareKey c = false)
    (noDot : '.' ∉ (skip rest).head?) : key (name.toList ++ rest) = some ([name], skip rest) := by
  obtain ⟨c, cs, text, bare⟩ := h.exists_cons
  have length : (name.toList ++ rest).length = (cs ++ rest).length + 1 := by
    rw [text]
    rfl
  have parts : keyParts (name.toList ++ rest).length (name.toList ++ rest) =
      some ([name], skip rest) := by
    rw [length, keyParts, skip_append_of_isBare h, simpleKey_of_isBare h apart]
    dsimp only [Option.bind_eq_bind, Option.bind_some]
    split
    · next dot => exact absurd (by rw [dot]; rfl) noDot
    · rfl
  unfold key
  rw [parts]
  rfl

end Key

end PrintPath.Toml
