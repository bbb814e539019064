import PrintPath.Proofs.Number.Digits
import PrintPath.Proofs.Number.Exact

/-!
# The text of a double

A double is written with the fewest digits for which a reader takes the text for
the same double; where no seventeen digits do, it is written exactly. Either way
the text of a finite double is read back as that double.
-/

namespace PrintPath.Number

/-! ## Decimals and doubles -/

section Decimal

variable {digits : Nat} {exponent : Int}

theorem toFloat_of_zero (exponent : Int) : Decimal.toFloat ⟨0, exponent⟩ = nearest 0 1 :=
  if_pos rfl

theorem toFloat_of_bounded (some : digits ≠ 0) (most : exponent ≤ 400)
    (least : -(400 + (digits.log2 : Int)) ≤ exponent) :
    Decimal.toFloat ⟨digits, exponent⟩ =
      nearest (digits * 10 ^ exponent.toNat) (10 ^ (-exponent).toNat) := by
  unfold Decimal.toFloat
  rw [if_neg some, if_neg (Int.not_lt.mpr most), if_neg (Int.not_lt.mpr least)]
  rfl

theorem parts_toFloat_of_great (some : digits ≠ 0) (great : 400 < exponent) :
    parts (Decimal.toFloat ⟨digits, exponent⟩) = .infinity false := by
  unfold Decimal.toFloat
  rw [if_neg some, if_pos great]
  decide +kernel

/-- The zeros before the point make no difference to the double. -/
theorem toFloat_filled (h : digits = 0 ∨ exponent ≤ 400) :
    (Decimal.filled ⟨digits, exponent⟩).toFloat = Decimal.toFloat ⟨digits, exponent⟩ := by
  show Decimal.toFloat ⟨digits * 10 ^ exponent.toNat, min exponent 0⟩ = _
  rcases Int.lt_or_le exponent 0 with fraction | whole
  · have zero : exponent.toNat = 0 := by omega
    rw [zero, Nat.pow_zero, Nat.mul_one, min_eq_left fraction.le]
  · rw [min_eq_right whole]
    rcases Nat.eq_zero_or_pos digits with rfl | pos
    · rw [Nat.zero_mul, toFloat_of_zero, toFloat_of_zero]
    · have filled : digits * 10 ^ exponent.toNat ≠ 0 :=
        (Nat.mul_pos pos (Nat.pow_pos (by decide))).ne'
      have zero : (-exponent).toNat = 0 := by omega
      rw [toFloat_of_bounded filled (by decide) (by omega),
        toFloat_of_bounded pos.ne' (h.resolve_left pos.ne') (by omega), zero]
      rw [Int.neg_zero, Int.toNat_zero, Nat.pow_zero, Nat.mul_one]

end Decimal

/-! ## The decimal of a double -/

section Shortest

variable {m : Nat} {q : Int}

theorem toFloat_exactDecimal (pos : 0 < m) (q : Int) :
    (exactDecimal m q).toFloat = ofProduct m q := by
  unfold exactDecimal ofProduct
  rcases Int.lt_or_le q 0 with fraction | whole
  · have zero : q.toNat = 0 := by omega
    have some : m * 5 ^ (-q).toNat ≠ 0 := (Nat.mul_pos pos (Nat.pow_pos (by decide))).ne'
    -- Every factor of five brings a binary digit, which keeps the exponent within bounds.
    have bits : (-q).toNat ≤ (m * 5 ^ (-q).toNat).log2 := by
      rw [Nat.le_log2 some]
      calc 2 ^ (-q).toNat
          ≤ 5 ^ (-q).toNat := Nat.pow_le_pow_left (by decide) _
        _ ≤ m * 5 ^ (-q).toNat := Nat.le_mul_of_pos_left _ pos
    have ten : (10 : Nat) ^ (-q).toNat = 5 ^ (-q).toNat * 2 ^ (-q).toNat :=
      Nat.mul_pow 5 2 _
    rw [if_neg (Int.not_le.mpr fraction), Nat.pow_eq,
      toFloat_of_bounded some (by omega) (by omega), zero, Nat.pow_zero, Nat.mul_one,
      Nat.shiftLeft_zero, Nat.shiftLeft_eq, Nat.one_mul, ten]
    refine nearest_congr (Nat.mul_pos (Nat.pow_pos (by decide)) (Nat.two_pow_pos _))
      (Nat.two_pow_pos _) ?_
    rw [Nat.mul_assoc]
  · have zero : (-q).toNat = 0 := by omega
    have some : m <<< q.toNat ≠ 0 := mt Nat.shiftLeft_eq_zero_iff.mp pos.ne'
    rw [if_pos whole, toFloat_of_bounded some (by decide) (by omega), zero, Int.neg_zero,
      Int.toNat_zero, Nat.pow_zero, Nat.mul_one, Nat.shiftLeft_zero]

theorem parts_zero : parts 0 = .finite false 0 (-1074) := by
  decide +kernel

theorem parts_neg_zero : parts (-0) = .finite true 0 (-1074) := by
  decide +kernel

/-- Doubles that compare as equal are the same, unless they are zeros. -/
theorem eq_of_beq {x y : Float} {negative : Bool} (pos : 0 < m)
    (parted : parts y = .finite negative m q) (same : (x == y) = true) : x = y := by
  obtain ⟨-, -, rfl | ⟨-, rfl⟩ | ⟨-, rfl⟩⟩ := Float.beq_iff_ne_nan_and_eq.mp same
  · rfl
  · rw [parts_neg_zero] at parted
    cases parted
    exact absurd pos (Nat.lt_irrefl 0)
  · rw [parts_zero] at parted
    cases parted
    exact absurd pos (Nat.lt_irrefl 0)

theorem toFloat_shortest (h : InRange m q) (pos : 0 < m) :
    (shortest m q).toFloat = ofProduct m q := by
  unfold shortest
  dsimp only
  cases found : (List.range 17).findSome? _ with
  | none => exact toFloat_exactDecimal pos q
  | some d =>
      obtain ⟨i, _, onGrid⟩ := List.exists_of_findSome?_eq_some found
      have same := List.find?_some onGrid
      exact eq_of_beq pos (parts_ofProduct h) same

/-- The decimal that the magnitude of a double is written as. -/
def magnitude (m : Nat) (q : Int) : Decimal :=
  if m = 0 then ⟨0, 0⟩ else shortest m q

theorem toFloat_magnitude (h : InRange m q) : (magnitude m q).toFloat = ofProduct m q := by
  unfold magnitude
  rcases Nat.eq_zero_or_pos m with rfl | pos
  · rw [if_pos rfl, toFloat_of_zero, ofProduct, Nat.zero_shiftLeft]
    refine nearest_congr Nat.one_pos ?_ (by rw [Nat.zero_mul, Nat.zero_mul])
    rw [Nat.shiftLeft_eq, Nat.one_mul]
    exact Nat.two_pow_pos _
  · rw [if_neg pos.ne', toFloat_shortest h pos]

/-- The decimal of a finite double is not beyond the doubles. -/
theorem magnitude_bounded (h : InRange m q) :
    (magnitude m q).digits = 0 ∨ (magnitude m q).exponent ≤ 400 := by
  by_contra! beyond
  have infinite := parts_toFloat_of_great beyond.1 beyond.2
  have finite := parts_ofProduct h
  rw [← toFloat_magnitude h] at finite
  cases finite.symm.trans infinite

end Shortest

/-! ## Reading a literal -/

section Literal

variable {c : Char} {rest : List Char}

theorem ne_of_isDigit {c' : Char} (digit : isDigit c = true) (other : isDigit c' = false) :
    c ≠ c' := by
  rintro rfl
  rw [digit] at other
  cases other

theorem takeSign_of_isDigit (digit : isDigit c = true) (negative : Bool) :
    takeSign (signText negative ++ c :: rest) = (negative, c :: rest) := by
  cases negative with
  | true => rfl
  | false =>
      show takeSign (c :: rest) = _
      unfold takeSign
      split
      · next same => exact absurd (List.cons.inj same).1 (ne_of_isDigit digit rfl)
      · next same => exact absurd (List.cons.inj same).1 (ne_of_isDigit digit rfl)
      · rfl

theorem toLower_of_isDigit (digit : isDigit c = true) : c.toLower = c := by
  have most := (toNat_of_isDigit digit).2
  refine Char.toLower_eq_of_not_isUpper fun upper => ?_
  simp [Char.isUpper, UInt32.le_iff_toNat_le] at upper
  omega

theorem readName_of_isDigit (digit : isDigit c = true) : readName (c :: rest) = none := by
  have other {c' : Char} {cs : List Char} (letter : isDigit c' = false) :
      (c :: rest).map Char.toLower ≠ c' :: cs := by
    rw [List.map_cons, toLower_of_isDigit digit]
    exact fun same => ne_of_isDigit digit letter (List.cons.inj same).1
  unfold readName
  dsimp only
  rw [if_neg (not_or.mpr ⟨other rfl, other rfl⟩), if_neg (other rfl)]

/-- A digit is no sign and starts no name, so a text with digits is read as a decimal. -/
theorem readFloat_of_writes {cs : List Char} {d : Decimal} (h : Writes cs d) (negative : Bool) :
    readFloat (signText negative ++ cs) = some (withSign negative d.toFloat) := by
  obtain ⟨c, rest, rfl, digit⟩ := h.exists_cons
  unfold readFloat
  rw [takeSign_of_isDigit digit]
  dsimp only
  rw [readName_of_isDigit digit, h.readDecimal_eq]
  rfl

end Literal

/-! ## Reading back -/

section Plain

variable {x : Float} {negative : Bool} {m : Nat} {q : Int}

theorem plain_of_parts (h : parts x = .finite negative m q) :
    plain x = signText negative ++ (magnitude m q).plain := by
  unfold plain writeWith magnitude
  rw [h]
  dsimp only
  split <;> rfl

/-- **Reading undoes writing.** The text of a finite double is read as that double. -/
theorem readFloat_plain (h : x.isFinite) : readFloat (plain x) = some x := by
  obtain ⟨negative, m, q, parted⟩ := exists_parts_of_isFinite h
  have range := inRange_of_parts parted
  rw [plain_of_parts parted, readFloat_of_writes (writes_plain _),
    toFloat_filled (magnitude_bounded range), toFloat_magnitude range, withSign_ofProduct parted]

/-- The characters that the text of a finite double can have. -/
theorem mem_plain (h : x.isFinite) : ∀ c ∈ plain x, isDigit c = true ∨ c = '.' ∨ c = '-' := by
  obtain ⟨negative, m, q, parted⟩ := exists_parts_of_isFinite h
  intro c mem
  rw [plain_of_parts parted] at mem
  rcases List.mem_append.mp mem with sign | body
  · cases negative with
    | true => exact Or.inr (Or.inr (List.mem_singleton.mp sign))
    | false => cases sign
  · exact ((writes_plain _).isDigit_or_point c body).imp_right Or.inl

end Plain

end PrintPath.Number
