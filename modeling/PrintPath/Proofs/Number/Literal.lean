import PrintPath.Proofs.Number.Plain

/-!
# The grammar of literals

A literal is a sign, digits with a point among them or around them, and a power of
ten, where everything but one digit may be missing. A reader takes the literals and
the names of the values that have no digits, and nothing else.
-/

namespace PrintPath.Number

/-! ## The grammar -/

/-- A sign, and whether it is that of negative numbers. -/
inductive SignText : List Char → Bool → Prop
  | none : SignText [] false
  | plus : SignText ['+'] false
  | minus : SignText ['-'] true

/-- A power of ten, if there is one. -/
inductive ExponentText : List Char → Int → Prop
  | none : ExponentText [] 0
  | power {e : Char} {sign ds : List Char} {negative : Bool} : e = 'e' ∨ e = 'E' →
      SignText sign negative → ds ≠ [] → AllDigits ds →
      ExponentText (e :: (sign ++ ds))
        (if negative then -(ofDigits ds : Int) else ofDigits ds)

/-- A literal without a sign, and its decimal. Digits may be missing on one side of
the point. -/
inductive DecimalText : List Char → Decimal → Prop
  | mk {whole fraction digits exponent : List Char} {e : Int} : AllDigits whole →
      FractionText fraction digits → whole ++ digits ≠ [] → ExponentText exponent e →
      DecimalText (whole ++ (fraction ++ exponent))
        ⟨ofDigits (whole ++ digits), e - digits.length⟩

/-- A literal with its sign and its decimal. -/
inductive Literal : List Char → Bool → Decimal → Prop
  | mk {sign cs : List Char} {negative : Bool} {d : Decimal} :
      SignText sign negative → DecimalText cs d → Literal (sign ++ cs) negative d

/-- The name of an infinity or of the undefined value, in any case. -/
def IsName (cs : List Char) : Prop :=
  cs.map Char.toLower ∈ ["inf".toList, "infinity".toList, "nan".toList]

/-- A name with a sign. -/
def IsSignedName (cs : List Char) : Prop :=
  ∃ sign negative name, cs = sign ++ name ∧ SignText sign negative ∧ IsName name

/-! ## Signs and powers of ten -/

/-- Nothing of a sign stands in front. -/
def Unsigned (cs : List Char) : Prop :=
  cs.head? ≠ some '+' ∧ cs.head? ≠ some '-'

theorem unsigned_of_allDigits {ds : List Char} (digits : AllDigits ds) : Unsigned ds := by
  cases ds with
  | nil => exact ⟨nofun, nofun⟩
  | cons c ds =>
      have digit := digits c List.mem_cons_self
      exact ⟨fun same => ne_of_isDigit digit rfl (Option.some.inj same),
        fun same => ne_of_isDigit digit rfl (Option.some.inj same)⟩

theorem takeSign_append {sign cs : List Char} {negative : Bool} (h : SignText sign negative)
    (unsigned : Unsigned cs) : takeSign (sign ++ cs) = (negative, cs) := by
  cases h with
  | plus => rfl
  | minus => rfl
  | none =>
      rw [List.nil_append]
      unfold takeSign
      split
      · exact absurd rfl unsigned.2
      · exact absurd rfl unsigned.1
      · rfl

theorem exists_signText (cs : List Char) :
    ∃ sign, cs = sign ++ (takeSign cs).2 ∧ SignText sign (takeSign cs).1 := by
  unfold takeSign
  split
  · exact ⟨['-'], rfl, .minus⟩
  · exact ⟨['+'], rfl, .plus⟩
  · exact ⟨[], rfl, .none⟩

theorem readExponent_eq_some_iff {cs : List Char} {e : Int} :
    readExponent cs = some e ↔ ExponentText cs e := by
  constructor
  · intro h
    cases cs with
    | nil =>
        cases h
        exact .none
    | cons letter rest =>
        obtain ⟨sign, text, signed⟩ := exists_signText rest
        unfold readExponent at h
        dsimp only at h
        split at h
        · next power =>
            split at h
            · next digits =>
                obtain rfl := Option.some.inj h
                have written :=
                  ExponentText.power power signed digits.1 (List.all_eq_true.mp digits.2)
                rwa [← text] at written
            · cases h
        · cases h
  · intro h
    cases h with
    | none => rfl
    | power power signed nonempty digits =>
        unfold readExponent
        dsimp only
        rw [if_pos power, takeSign_append signed (unsigned_of_allDigits digits)]
        dsimp only
        rw [if_pos ⟨nonempty, List.all_eq_true.mpr digits⟩]

/-- A power of ten starts with neither a digit nor a point. -/
theorem ExponentText.head {cs : List Char} {e : Int} (h : ExponentText cs e) :
    ∀ c ∈ cs.head?, isDigit c = false ∧ c ≠ '.' := by
  cases h with
  | none => exact nofun
  | power power =>
      intro c first
      cases first
      rcases power with rfl | rfl <;> decide

/-! ## Digits and the point -/

/-- Every text is a mantissa and what follows it. -/
theorem exists_fractionText (cs : List Char) :
    ∃ fraction, cs = (splitMantissa cs).1 ++ (fraction ++ (splitMantissa cs).2.2) ∧
      AllDigits (splitMantissa cs).1 ∧ FractionText fraction (splitMantissa cs).2.1 := by
  have whole : AllDigits (cs.takeWhile isDigit) := fun c mem => List.mem_takeWhile_imp mem
  unfold splitMantissa
  dsimp only
  split
  · next rest left =>
      refine ⟨'.' :: rest.takeWhile isDigit, ?_, whole,
        .point fun c mem => List.mem_takeWhile_imp mem⟩
      rw [List.cons_append, List.takeWhile_append_dropWhile, ← left,
        List.takeWhile_append_dropWhile]
  · exact ⟨[], (List.takeWhile_append_dropWhile).symm, whole, .none⟩

theorem readDecimal_eq_some_iff {cs : List Char} {d : Decimal} :
    readDecimal cs = some d ↔ DecimalText cs d := by
  constructor
  · intro h
    obtain ⟨fraction, text, whole, point⟩ := exists_fractionText cs
    unfold readDecimal at h
    dsimp only at h
    split at h
    · cases h
    · next some =>
        obtain ⟨e, power, rfl⟩ := Option.map_eq_some_iff.mp h
        have nonempty : (splitMantissa cs).1 ++ (splitMantissa cs).2.1 ≠ [] :=
          mt List.append_eq_nil_iff.mp some
        have written := DecimalText.mk whole point nonempty (readExponent_eq_some_iff.mp power)
        rwa [← text] at written
  · rintro ⟨whole, point, some, power⟩
    unfold readDecimal
    rw [splitMantissa_append whole point power.head]
    dsimp only
    rw [if_neg (by rwa [← List.append_eq_nil_iff]), readExponent_eq_some_iff.mpr power]
    rfl

/-! ## Names -/

/-- A decimal starts with a digit or with a point. -/
theorem DecimalText.head {cs : List Char} {d : Decimal} (h : DecimalText cs d) :
    ∃ c rest, cs = c :: rest ∧ (isDigit c = true ∨ c = '.') := by
  obtain ⟨all, point, some, -⟩ := h
  rename_i whole fraction digits exponent e
  cases whole with
  | cons c whole => exact ⟨c, _, rfl, Or.inl (all c List.mem_cons_self)⟩
  | nil =>
      cases point with
      | none => exact absurd rfl some
      | point => exact ⟨'.', _, rfl, Or.inr rfl⟩

theorem unsigned_cons {c : Char} (plus : c ≠ '+') (minus : c ≠ '-') (rest : List Char) :
    Unsigned (c :: rest) :=
  ⟨fun same => plus (Option.some.inj same), fun same => minus (Option.some.inj same)⟩

theorem DecimalText.unsigned {cs : List Char} {d : Decimal} (h : DecimalText cs d) :
    Unsigned cs := by
  obtain ⟨c, rest, rfl, digit | rfl⟩ := h.head
  · exact unsigned_cons (ne_of_isDigit digit rfl) (ne_of_isDigit digit rfl) rest
  · exact unsigned_cons (by decide) (by decide) rest

/-- A name starts with one of two letters. -/
theorem IsName.head {cs : List Char} (h : IsName cs) :
    ∃ c rest, cs = c :: rest ∧ (c.toLower = 'i' ∨ c.toLower = 'n') := by
  cases cs with
  | nil => simp [IsName] at h
  | cons c rest =>
      refine ⟨c, rest, rfl, ?_⟩
      simp only [IsName, List.map_cons, List.mem_cons, List.not_mem_nil, or_false] at h
      rcases h with h | h | h
      · exact Or.inl (List.cons.inj h).1
      · exact Or.inl (List.cons.inj h).1
      · exact Or.inr (List.cons.inj h).1

theorem IsName.unsigned {cs : List Char} (h : IsName cs) : Unsigned cs := by
  obtain ⟨c, rest, rfl, letter⟩ := h.head
  refine unsigned_cons ?_ ?_ rest
  · rintro rfl
    revert letter
    decide
  · rintro rfl
    revert letter
    decide

/-- No decimal is a name. -/
theorem DecimalText.not_isName {cs : List Char} {d : Decimal} (h : DecimalText cs d) :
    ¬ IsName cs := by
  intro name
  obtain ⟨c, rest, rfl, first⟩ := h.head
  obtain ⟨c', rest', same, letter⟩ := name.head
  obtain ⟨rfl, rfl⟩ := List.cons.inj same
  rcases first with digit | rfl
  · rw [toLower_of_isDigit digit] at letter
    rcases letter with rfl | rfl <;> cases digit
  · revert letter
    decide

theorem isName_of_readName {cs : List Char} {x : Float} (h : readName cs = some x) :
    IsName cs := by
  unfold readName at h
  dsimp only at h
  unfold IsName
  split at h
  · next infinite => exact infinite.elim (fun h => by simp [h]) (fun h => by simp [h])
  · split at h
    · next undefined => simp [undefined]
    · cases h

/-- No name stands for a finite number. -/
theorem exists_readName {cs : List Char} (h : IsName cs) (negative : Bool) :
    ∃ x, readName cs = some x ∧ (withSign negative x).isFinite = false := by
  unfold readName
  dsimp only
  split
  · exact ⟨_, rfl, by cases negative <;> decide +kernel⟩
  · next finite =>
      split
      · exact ⟨_, rfl, by cases negative <;> decide +kernel⟩
      · next other =>
          simp only [IsName, List.mem_cons, List.not_mem_nil, or_false] at h
          rcases h with h | h | h
          · exact absurd (Or.inl h) finite
          · exact absurd (Or.inr h) finite
          · exact absurd h other

/-! ## Reading literals -/

theorem Literal.ne_nil {cs : List Char} {negative : Bool} {d : Decimal}
    (h : Literal cs negative d) : cs ≠ [] := by
  obtain ⟨-, text⟩ := h
  obtain ⟨c, rest, rfl, -⟩ := text.head
  exact List.append_ne_nil_of_right_ne_nil _ (List.cons_ne_nil c rest)

theorem IsSignedName.ne_nil {cs : List Char} (h : IsSignedName cs) : cs ≠ [] := by
  obtain ⟨sign, negative, name, rfl, -, named⟩ := h
  obtain ⟨c, rest, rfl, -⟩ := named.head
  exact List.append_ne_nil_of_right_ne_nil _ (List.cons_ne_nil c rest)

/-- A literal stands for the double nearest to its decimal, with its sign. -/
theorem readFloat_of_literal {cs : List Char} {negative : Bool} {d : Decimal}
    (h : Literal cs negative d) : readFloat cs = some (withSign negative d.toFloat) := by
  obtain ⟨signed, text⟩ := h
  unfold readFloat
  rw [takeSign_append signed text.unsigned]
  dsimp only
  have nameless : readName _ = none :=
    Option.eq_none_iff_forall_ne_some.mpr fun x named => text.not_isName (isName_of_readName named)
  rw [nameless, readDecimal_eq_some_iff.mpr text]
  rfl

theorem readFloat_of_signedName {cs : List Char} (h : IsSignedName cs) :
    ∃ x, readFloat cs = some x ∧ x.isFinite = false := by
  obtain ⟨sign, negative, name, rfl, signed, named⟩ := h
  obtain ⟨x, read, infinite⟩ := exists_readName named negative
  refine ⟨withSign negative x, ?_, infinite⟩
  unfold readFloat
  rw [takeSign_append signed named.unsigned]
  dsimp only
  rw [read]
  rfl

/-- What is read as a number is a literal or a name. -/
theorem literal_or_name {cs : List Char} {x : Float} (h : readFloat cs = some x) :
    (∃ negative d, Literal cs negative d ∧ x = withSign negative d.toFloat) ∨
      IsSignedName cs := by
  obtain ⟨sign, text, signed⟩ := exists_signText cs
  unfold readFloat at h
  dsimp only at h
  obtain ⟨y, read, rfl⟩ := Option.map_eq_some_iff.mp h
  rcases Option.or_eq_some_iff.mp read with named | ⟨-, decimal⟩
  · exact Or.inr ⟨sign, _, _, text, signed, isName_of_readName named⟩
  · obtain ⟨d, digits, rfl⟩ := Option.map_eq_some_iff.mp decimal
    have written := Literal.mk signed (readDecimal_eq_some_iff.mp digits)
    rw [← text] at written
    exact Or.inl ⟨_, d, written, rfl⟩

end PrintPath.Number
