import PrintPath.Json.Reader
import PrintPath.Json.Writer
import PrintPath.Proofs.Document.Escape

/-!
# Reading written JSON

Sections that are written as JSON are read back as they were, whatever their names and
texts are.
-/

namespace PrintPath.Json

open Document (Escapes)

/-! ## Strings -/

/-- Whether a character may stand for itself. -/
def isPlain (c : Char) : Bool :=
  0x20 ≤ c.toNat

theorem escapes (c : Char) : Escapes simpleEscape? isPlain c (escape c) := by
  unfold escape
  split_ifs with quote backslash backspace feed line return' tab control
  · subst quote; exact .letter rfl
  · subst backslash; exact .letter rfl
  · subst backspace; exact .letter rfl
  · subst feed; exact .letter rfl
  · subst line; exact .letter rfl
  · subst return'; exact .letter rfl
  · subst tab; exact .letter rfl
  · refine .code (Scanner.ofHex?_toNat (by decide) (fun n => ?_) (by omega))
    rw [hexDigit, hexDigit, Nat.mod_mod]
  · exact .itself quote backslash (by simpa [isPlain] using control)

theorem units_of_escapes {c : Char} {text : List Char}
    (h : Escapes simpleEscape? isPlain c text) (rest : List Char) :
    units (text ++ rest) = (units rest).map fun r => (c.toNat :: r.1, r.2) := by
  cases h with
  | @letter l given =>
      have other : l ≠ 'u' := by
        rintro rfl
        cases given
      rw [List.cons_append, List.singleton_append, units, given]
      · cases units rest <;> rfl
      · exact fun _ _ _ _ _ same => absurd same other
  | @code a b given =>
      have text : ['\\', 'u', '0', '0', a, b] ++ rest =
        '\\' :: 'u' :: '0' :: '0' :: a :: b :: rest := rfl
      rw [text, units, given]
      cases units rest <;> rfl
  | itself quote backslash plain =>
      rw [List.singleton_append, units, if_neg (by simpa [isPlain] using plain)]
      · cases units rest <;> rfl
      -- What the reader takes before plain characters starts with a quote or a backslash.
      all_goals (intros; contradiction)

theorem units_flatMap_escape (cs rest : List Char) :
    units (cs.flatMap escape ++ '"' :: rest) = some (cs.map Char.toNat, rest) := by
  induction cs with
  | nil => rfl
  | cons c cs ih =>
      rw [List.flatMap_cons, List.append_assoc, units_of_escapes (escapes c), ih]
      rfl

/-- No character is half of a surrogate pair. -/
theorem joinUnits_map_toNat (cs : List Char) : joinUnits (cs.map Char.toNat) = some cs := by
  induction cs with
  | nil => rfl
  | cons c cs ih =>
      have valid : c.toNat < 0xd800 ∨ (0xdfff < c.toNat ∧ c.toNat < 0x110000) := c.valid
      have high : isHighSurrogate c.toNat = false := by
        simp only [isHighSurrogate, Bool.and_eq_false_iff, decide_eq_false_iff_not]
        omega
      have low : isLowSurrogate c.toNat = false := by
        simp only [isLowSurrogate, Bool.and_eq_false_iff, decide_eq_false_iff_not]
        omega
      rw [List.map_cons]
      unfold joinUnits
      rw [high, low, ih]
      exact congrArg (fun first => some (first :: cs)) (Char.ofNat_toNat c)

theorem string_flatMap_escape (cs rest : List Char) :
    string (cs.flatMap escape ++ '"' :: rest) = some (some (String.ofList cs), rest) := by
  unfold string
  rw [units_flatMap_escape]
  exact congrArg (fun joined => some (joined.map String.ofList, rest)) (joinUnits_map_toNat cs)

/-! ## Scalars -/

theorem value_quote (depth : Nat) (s : String) (rest : List Char) :
    value depth (quote s.toList ++ rest) = some (.text s, rest) := by
  have text : quote s.toList ++ rest = '"' :: (s.toList.flatMap escape ++ '"' :: rest) := by
    simp [quote]
  rw [text]
  unfold value
  rw [if_pos rfl, string_flatMap_escape, String.ofList_toList]
  rfl

theorem value_writeScalar (depth : Nat) (v : Scalar) (rest : List Char) :
    value depth (writeScalar v ++ rest) = some (v.toDocument, rest) := by
  match v with
  | .flag true => cases depth <;> rfl
  | .flag false => cases depth <;> rfl
  | .text s => exact value_quote depth s rest

/-! ## Brackets -/

section Items

variable {α : Type} {b : Scanner.Bracket} {item : Scanner α} {a : α} {fuel : Nat}
  {cs rest rest' more : List Char}

/-- The last item of a bracket. -/
theorem items_last (read : item cs = some (a, rest)) (other : b.close ≠ ',')
    (gap : b.skip rest = some (b.close :: rest')) :
    Scanner.items b item (fuel + 1) cs = some ([a], rest') := by
  unfold Scanner.items
  simp [read, gap, other]

/-- An item of a bracket with a comma behind it. -/
theorem items_comma (read : item cs = some (a, rest)) (noTrailing : b.trailingComma = false)
    (gap : b.skip rest = some (',' :: rest')) (gap' : b.skip rest' = some more) :
    Scanner.items b item (fuel + 1) cs =
      (Scanner.items b item fuel more).map fun r => (a :: r.1, r.2) := by
  rw [Scanner.items]
  simp only [read, gap, gap', noTrailing, Option.bind_eq_bind, Option.bind_some]
  cases Scanner.items b item fuel more <;> rfl

/-- A bracket that is not closed at once. -/
theorem bracketed_eq_items (gap : b.skip cs = some rest) (given : rest.head? ≠ some b.close) :
    Scanner.bracketed b item cs = Scanner.items b item rest.length rest := by
  unfold Scanner.bracketed
  simp [gap, given]

end Items

/-! ## Objects -/

/-- A text that does not start with white space. -/
def Solid (cs : List Char) : Prop :=
  ∃ c ∈ cs.head?, isSpace c = false

theorem skip_of_solid {cs : List Char} (h : Solid cs) (rest : List Char) :
    skip (cs ++ rest) = cs ++ rest := by
  obtain ⟨c, first, solid⟩ := h
  cases cs with
  | nil => cases first
  | cons d cs =>
      cases first
      exact List.dropWhile_cons_of_neg (by simp [solid])

theorem skip_indentation (level : Nat) (cs : List Char) :
    skip (indentation level ++ cs) = skip cs := by
  have blank : ∀ n, skip (List.replicate n ' ' ++ cs) = skip cs := by
    intro n
    induction n with
    | zero => rfl
    | succ n ih => exact ih
  exact blank _

/-- A member of an object, as it stands on its line. -/
def memberText {α : Type} (write : α → List Char) (m : String × α) : List Char :=
  quote m.1.toList ++ [':', ' '] ++ write m.2

theorem solid_memberText {α : Type} (write : α → List Char) (m : String × α) :
    Solid (memberText write m) :=
  ⟨'"', rfl, rfl⟩

/-- The members behind the first one. -/
def laterMembers {α : Type} (level : Nat) (write : α → List Char) (ms : List (String × α)) :
    List Char :=
  ms.flatMap fun m => ',' :: (indentation (level + 1) ++ memberText write m)

theorem length_le_laterMembers {α : Type} (level : Nat) (write : α → List Char)
    (ms : List (String × α)) : ms.length ≤ (laterMembers level write ms).length := by
  induction ms with
  | nil => exact Nat.zero_le _
  | cons m ms ih =>
      have later : laterMembers level write (m :: ms) =
          ',' :: (indentation (level + 1) ++ memberText write m) ++ laterMembers level write ms :=
        List.flatMap_cons
      rw [later, List.length_append, List.length_cons, List.length_cons]
      omega

theorem intercalate_cons {α : Type} (sep first : List α) (others : List (List α)) :
    sep.intercalate (first :: others) = first ++ others.flatMap (sep ++ ·) := by
  induction others generalizing first with
  | nil => simp
  | cons next others ih => simp [ih]

theorem writeObject_cons {α : Type} (level : Nat) (write : α → List Char) (m : String × α)
    (ms : List (String × α)) :
    writeObject level write (m :: ms) =
      '\x7b' :: (indentation (level + 1) ++ memberText write m ++ laterMembers level write ms ++
        indentation level ++ ['\x7d']) := by
  unfold writeObject
  rw [if_neg (List.cons_ne_nil _ _)]
  dsimp only
  rw [List.map_cons, intercalate_cons, List.flatMap_map]
  simp [memberText, laterMembers]

theorem solid_writeObject {α : Type} (level : Nat) (write : α → List Char)
    (ms : List (String × α)) : Solid (writeObject level write ms) := by
  cases ms with
  | nil => exact ⟨'\x7b', rfl, rfl⟩
  | cons m ms =>
      rw [writeObject_cons]
      exact ⟨'\x7b', rfl, rfl⟩

/-- A member with a name goes in front of the others. -/
theorem ofMembers_cons {others : List (Option String × Document)}
    {named : List (String × Document)} (h : ofMembers others = .table named) (name : String)
    (d : Document) : ofMembers ((some name, d) :: others) = .table ((name, d) :: named) := by
  unfold ofMembers at h ⊢
  rw [List.mapM_cons]
  split at h
  · next found =>
      cases h
      rw [found]
      rfl
  · cases h

theorem ofMembers_some {α : Type} (doc : α → Document) (ms : List (String × α)) :
    ofMembers (ms.map fun m => (some m.1, doc m.2)) = .table (ms.map fun m => (m.1, doc m.2)) := by
  induction ms with
  | nil => rfl
  | cons m ms ih => exact ofMembers_cons ih m.1 (doc m.2)

section Objects

variable {α : Type} {write : α → List Char} {doc : α → Document} {depth : Nat}
  (solid : ∀ a, Solid (write a))
  (reads : ∀ a rest, value depth (write a ++ rest) = some (doc a, rest))

include solid reads

theorem member_memberText (m : String × α) (rest : List Char) :
    member (value depth) (memberText write m ++ rest) = some ((some m.1, doc m.2), rest) := by
  have text : memberText write m ++ rest =
      '"' :: (m.1.toList.flatMap escape ++ '"' :: ':' :: ' ' :: (write m.2 ++ rest)) := by
    simp [memberText, quote]
  have colon : skip (':' :: ' ' :: (write m.2 ++ rest)) = ':' :: ' ' :: (write m.2 ++ rest) := rfl
  have blank : skip (' ' :: (write m.2 ++ rest)) = skip (write m.2 ++ rest) := rfl
  rw [text, member, string_flatMap_escape]
  simp [colon, blank, skip_of_solid (solid m.2), reads]

theorem items_memberText (level : Nat) (m : String × α) (ms : List (String × α)) {fuel : Nat}
    (enough : ms.length < fuel) (rest : List Char) :
    Scanner.items (bracket '\x7d') (member (value depth)) fuel
        (memberText write m ++ (laterMembers level write ms ++ (indentation level ++
          '\x7d' :: rest))) =
      some ((m :: ms).map fun m => (some m.1, doc m.2), rest) := by
  induction ms generalizing m fuel with
  | nil =>
      obtain ⟨fuel, rfl⟩ := Nat.exists_eq_add_one_of_ne_zero (Nat.ne_of_gt enough)
      refine items_last (member_memberText solid reads m _) (by decide) ?_
      exact congrArg some (skip_indentation level _)
  | cons next ms ih =>
      -- The reader skips the indentation of the next line behind the comma of this one.
      obtain ⟨fuel, rfl⟩ := Nat.exists_eq_add_one_of_ne_zero (Nat.ne_zero_of_lt enough)
      have later : laterMembers level write (next :: ms) ++ (indentation level ++ '\x7d' :: rest) =
          ',' :: (indentation (level + 1) ++ (memberText write next ++
            (laterMembers level write ms ++ (indentation level ++ '\x7d' :: rest)))) := by
        simp [laterMembers]
      rw [later, items_comma (member_memberText solid reads m _) rfl rfl
        (congrArg some (skip_indentation (level + 1) _)),
        skip_of_solid (solid_memberText write next), ih next (Nat.lt_of_succ_lt_succ enough)]
      rfl

theorem bracketed_memberText (level : Nat) (m : String × α) (ms : List (String × α))
    (rest : List Char) :
    Scanner.bracketed (bracket '\x7d') (member (value depth))
        (indentation (level + 1) ++ (memberText write m ++ (laterMembers level write ms ++
          (indentation level ++ '\x7d' :: rest)))) =
      some ((m :: ms).map fun m => (some m.1, doc m.2), rest) := by
  have enough : ms.length < (memberText write m ++ (laterMembers level write ms ++
      (indentation level ++ '\x7d' :: rest))).length := by
    have short := length_le_laterMembers level write ms
    simp only [List.length_append, List.length_cons]
    omega
  have gap := (congrArg some (skip_indentation (level + 1) _)).trans
    (congrArg some (skip_of_solid (solid_memberText write m)
      (laterMembers level write ms ++ (indentation level ++ '\x7d' :: rest))))
  rw [bracketed_eq_items (b := bracket '\x7d') gap (by simp [memberText, quote, bracket])]
  exact items_memberText solid reads level m ms enough rest

/-- A written object is read as a table. -/
theorem value_writeObject (level : Nat) (ms : List (String × α)) (rest : List Char) :
    value (depth + 1) (writeObject level write ms ++ rest) =
      some (.table (ms.map fun m => (m.1, doc m.2)), rest) := by
  cases ms with
  | nil => rfl
  | cons m ms =>
      have text : writeObject level write (m :: ms) ++ rest =
          '\x7b' :: (indentation (level + 1) ++ (memberText write m ++
            (laterMembers level write ms ++ (indentation level ++ '\x7d' :: rest)))) := by
        simp [writeObject_cons]
      rw [text]
      unfold value
      rw [if_neg (by decide), if_neg (by decide), if_pos rfl]
      dsimp only
      rw [bracketed_memberText solid reads]
      exact congrArg (fun d => some (d, rest)) (ofMembers_some doc (m :: ms))

end Objects

/-! ## Sections -/

theorem solid_writeScalar (v : Scalar) : Solid (writeScalar v) := by
  match v with
  | .flag true => exact ⟨'t', rfl, rfl⟩
  | .flag false => exact ⟨'f', rfl, rfl⟩
  | .text s => exact ⟨'"', rfl, rfl⟩

/-- Written sections are read back. -/
theorem read_write (ss : Sections) : read (write ss) = some ss.toDocument := by
  have deep : 2 ≤ (writeObject 0 (writeObject 1 writeScalar) ss).length := by
    cases ss with
    | nil => exact Nat.le_refl 2
    | cons s ss =>
        rw [writeObject_cons]
        simp only [List.length_cons, List.length_append, List.length_nil]
        omega
  obtain ⟨depth, length⟩ := Nat.exists_eq_add_of_le deep
  have inner (s : Section) (rest : List Char) :
      value (depth + 1) (writeObject 1 writeScalar s ++ rest) = some (s.toDocument, rest) :=
    value_writeObject solid_writeScalar (value_writeScalar depth) 1 s rest
  have whole := value_writeObject (solid_writeObject 1 writeScalar) inner 0 ss []
  have start := skip_of_solid (solid_writeObject 0 (writeObject 1 writeScalar) ss) []
  rw [List.append_nil] at whole start
  unfold read write
  rw [String.toList_ofList]
  dsimp only
  rw [start, length, Nat.add_comm 2 depth, whole]
  rfl

end PrintPath.Json
