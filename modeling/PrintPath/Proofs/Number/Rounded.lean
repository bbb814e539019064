import Mathlib
import PrintPath.Proofs.Number.Overflow

/-!
# Rounded numbers

Every operation on doubles ends in the same two shifts: the first one rounds an exact
quotient to a significand, the second one takes up a carry. What they make, put into
a word, is the double nearest to the quotient. So it is enough to know of a result
that it is the rounding of a number, and of which one.
-/

namespace PrintPath.Number

open Float.Model Float.Model.UnpackedFloat

/-! ## Two shifts -/

theorem targetExponent_eq (m : Nat) (q : Int) :
    Format.binary64.targetExponent (totalExponent m q) = spacing m q := by
  have precision : Format.binary64.mantissaBits = 53 := rfl
  have least : Format.binary64.minExponent = -1074 := by decide
  rw [Format.targetExponent, totalExponent, precision, least, spacing]
  congr 1
  omega

/-- The first shift leaves a significand of the quotient, with the bits that tell how to
round it. -/
theorem shiftToTargetExponent_quotient (n : Nat) {d : Nat} (pos : 0 < d) (q : Int) :
    shiftToTargetExponent .binary64 (n / d) q (accuracyOfFraction (n % d) d) =
      (extended n (d * 2 ^ (spacing (n / d) q - q).toNat), max q (spacing (n / d) q)) := by
  rw [shiftToTargetExponent, targetExponent_eq, shiftToExponent]
  congr 1
  · exact shiftRight_extended n pos _
  · omega

/-- The second shift makes room for a carry, if there was one. -/
theorem shiftToTargetExponent_rounded {r : Nat} {t : Int} (most : r ≤ 2 ^ 53)
    (least : -1074 ≤ t) :
    shiftToTargetExponent .binary64 r t .exact =
      if r = 2 ^ 53 then (⟨2 ^ 52, false, false⟩, t + 1) else (⟨r, false, false⟩, t) := by
  have whole := shiftToTargetExponent_quotient r Nat.one_pos t
  rw [Nat.div_one, Nat.mod_one, Nat.one_mul] at whole
  refine Eq.trans whole ?_
  split
  · next carried =>
      have next : spacing r t = t + 1 := by
        rw [carried, spacing, Nat.log2_two_pow]
        omega
      have one : (t + 1 - t).toNat = 1 := by omega
      rw [next, one, max_eq_right (by omega), carried]
      rfl
  · next other =>
      have bits : r.log2 < 53 := log2_lt_of_lt (by decide) (by omega)
      have same : spacing r t ≤ t := by
        rw [spacing]
        omega
      have none : (spacing r t - t).toNat = 0 := by omega
      rw [none, max_eq_left same, pow_zero, extended_one]

/-! ## Rounding a quotient -/

theorem ofModel_pack_finite {m : Nat} {q : Int} (h : InRange m q) (s : Sign) (pos : 0 < m) :
    Float.ofModel (.pack (.finite s m q pos)) = withSign (isNegative s) (ofProduct m q) := by
  refine (withSign_ofProduct ?_).symm
  rw [parts_eq, ← partsOf_finite s pos]
  exact congrArg partsOf (unpack_pack_finite h s pos)

/-- The double whose word has the spacing `t` and the significand `r`, where what is beyond
the greatest double is cut off. -/
def ofWord (t : Int) (r : Nat) : Float :=
  Float.ofBits (UInt64.ofNat
    (min ((t + 1074).toNat * leadingBit + r) ((fieldSize - 1) * leadingBit)))

theorem nearest_eq_ofWord {n d : Nat} (pos : 0 < n) :
    nearest n d = ofWord (quotientSpacing n d) (quotientSignificand n d) := by
  rw [nearest, nearestWord_eq pos, ofWord]

theorem ofProduct_eq_ofWord {m : Nat} {q : Int} (h : InRange m q) :
    ofProduct m q = ofWord q m := by
  have least : (q + 1074).toNat * leadingBit + m ≤ (fieldSize - 1) * leadingBit := by
    obtain ⟨fits, least, most, full⟩ := h
    unfold leadingBit fieldSize
    omega
  rw [ofProduct, nearest, nearestWord_of_inRange h, ofWord, min_eq_left least]

theorem ofWord_of_great {t : Int} {r : Nat}
    (great : (fieldSize - 1) * leadingBit ≤ (t + 1074).toNat * leadingBit + r) :
    ofWord t r = Float.ofBits 0x7ff0000000000000 := by
  rw [ofWord, min_eq_right great]
  rfl

/-- A carry out of the significand goes into the exponent. -/
theorem ofWord_carry {t : Int} (least : -1074 ≤ t) :
    ofWord t (2 ^ 53) = ofWord (t + 1) (2 ^ 52) := by
  have same : (t + 1074).toNat * leadingBit + 2 ^ 53 =
      (t + 1 + 1074).toNat * leadingBit + 2 ^ 52 := by
    unfold leadingBit
    omega
  rw [ofWord, ofWord, same]

theorem not_isFinite_ofWord {t : Int} {r : Nat}
    (great : (fieldSize - 1) * leadingBit ≤ (t + 1074).toNat * leadingBit + r) :
    ¬ (ofWord t r).isFinite = true := by
  rw [ofWord_of_great great]
  decide +kernel

theorem ofModel_pack_great {m : Nat} {q : Int} (great : ¬ q ≤ 971) (s : Sign) (pos : 0 < m) :
    Float.ofModel (.pack (.finite s m q pos)) =
      withSign (isNegative s) (Float.ofBits 0x7ff0000000000000) := by
  have packed : Float.Model.pack (.finite s m q pos) = Float.Model.pack (.infinity s) := by
    unfold Float.Model.pack
    simp only [pack_of_great great]
    rfl
  rw [packed]
  cases s <;> decide +kernel

/-- A rounded significand with its exponent. A carry makes it shorter again. -/
def carried (s : Sign) (r : Nat) (t : Int) : UnpackedFloat :=
  if r = 2 ^ 53 then .finite s (2 ^ 52) (t + 1) (Nat.two_pow_pos 52)
  else if none : r = 0 then .zero s
  else .finite s r t (Nat.pos_of_ne_zero none)

theorem ofModel_pack_carried (s : Sign) {r : Nat} {t : Int} (most : r ≤ 2 ^ 53)
    (least : -1074 ≤ t) (full : 2 ^ 52 ≤ r ∨ t = -1074) :
    Float.ofModel (.pack (carried s r t)) = withSign (isNegative s) (ofWord t r) := by
  unfold carried
  split
  · next carry =>
      subst carry
      rw [ofWord_carry least]
      by_cases small : t + 1 ≤ 971
      · have range : InRange (2 ^ 52) (t + 1) :=
          ⟨by decide, by omega, small, Or.inl (Nat.le_refl _)⟩
        rw [ofModel_pack_finite range, ofProduct_eq_ofWord range]
      · rw [ofModel_pack_great small, ofWord_of_great]
        unfold leadingBit fieldSize
        omega
  · next other =>
      split
      · next none =>
          subst none
          obtain rfl : t = -1074 := full.resolve_left (by decide)
          cases s <;> decide +kernel
      · next some =>
          by_cases small : t ≤ 971
          · have range : InRange r t := ⟨by omega, least, small, full⟩
            rw [ofModel_pack_finite range, ofProduct_eq_ofWord range]
          · rw [ofModel_pack_great small, ofWord_of_great]
            unfold leadingBit fieldSize
            omega

section Quotient

variable {n d : Nat} {q : Int}

/-- A quotient times a power of two as one quotient. -/
theorem cast_shifted (n d : Nat) (q : Int) :
    ((n <<< q.toNat : Nat) : ℚ) / ((d <<< (-q).toNat : Nat) : ℚ) = (n : ℚ) / d * 2 ^ q := by
  have power : (2 : ℚ) ^ q = 2 ^ q.toNat / 2 ^ (-q).toNat := by
    rw [← zpow_natCast, ← zpow_natCast, ← zpow_sub₀ two_ne_zero]
    congr 1
    omega
  rw [Nat.shiftLeft_eq, Nat.shiftLeft_eq, power]
  push_cast
  rw [div_mul_div_comm]

variable (posN : 0 < n) (posD : 0 < d)

include posN posD

theorem quotientSpacing_shifted (fine : q ≤ spacing (n / d) q) :
    quotientSpacing (n <<< q.toNat) (d <<< (-q).toNat) = spacing (n / d) q := by
  have shiftedN : 0 < n <<< q.toNat := Nat.shiftLeft_pos_iff.mpr posN
  have shiftedD : 0 < d <<< (-q).toNat := Nat.shiftLeft_pos_iff.mpr posD
  have positive : (0 : ℚ) < (n : ℚ) / d * 2 ^ q := by positivity
  have power : (0 : ℚ) < 2 ^ q := zpow_pos two_pos q
  have most (e : Int) : (n : ℚ) / d < 2 ^ e → Int.log 2 ((n : ℚ) / d * 2 ^ q) < e + q := by
    intro below
    rw [← Int.lt_zpow_iff_log_lt Nat.one_lt_two positive]
    push_cast
    rw [zpow_add₀ two_ne_zero]
    exact mul_lt_mul_of_pos_right below power
  have least (e : Int) : (2 : ℚ) ^ e ≤ n / d → e + q ≤ Int.log 2 ((n : ℚ) / d * 2 ^ q) := by
    intro above
    rw [← Int.zpow_le_iff_le_log Nat.one_lt_two positive]
    push_cast
    rw [zpow_add₀ two_ne_zero]
    exact mul_le_mul_of_nonneg_right above power.le
  have above : (n : ℚ) / d < ((n / d : Nat) : ℚ) + 1 := by
    rw [div_lt_iff₀ (by positivity)]
    exact_mod_cast Nat.lt_mul_of_div_lt (Nat.lt_succ_self (n / d)) posD
  unfold quotientSpacing spacing at *
  rw [floorLog2_eq_log shiftedN shiftedD, cast_shifted]
  rcases Nat.eq_zero_or_pos (n / d) with empty | some
  · -- Less than one step is left, and so the steps are the smallest ones.
    rw [empty, Nat.log2_zero] at fine ⊢
    have small := most 0 (by rw [empty] at above; simpa using above)
    omega
  · have high := most ((n / d).log2 + 1) <| above.trans_le <| by
      exact_mod_cast Nat.lt_log2_self
    have low := least (n / d).log2 <| by
      calc (2 : ℚ) ^ ((n / d).log2 : Int)
          ≤ ((n / d : Nat) : ℚ) := by exact_mod_cast Nat.log2_self_le some.ne'
        _ ≤ (n : ℚ) / d := Nat.cast_div_le
    omega

theorem quotientSignificand_shifted (fine : q ≤ spacing (n / d) q) :
    quotientSignificand (n <<< q.toNat) (d <<< (-q).toNat) =
      roundEven n (d * 2 ^ (spacing (n / d) q - q).toNat) := by
  unfold quotientSignificand
  rw [quotientSpacing_shifted posN posD fine]
  generalize spacing (n / d) q = t at fine
  simp only [Nat.shiftLeft_eq]
  refine roundEven_congr ?_ (Nat.mul_pos posD (Nat.two_pow_pos _)) ?_
  · exact Nat.mul_pos (Nat.mul_pos posD (Nat.two_pow_pos _)) (Nat.two_pow_pos _)
  · have exponents : q.toNat + (-t).toNat + (t - q).toNat = (-q).toNat + t.toNat := by omega
    calc n * 2 ^ q.toNat * 2 ^ (-t).toNat * (d * 2 ^ (t - q).toNat)
        = n * (d * 2 ^ (q.toNat + (-t).toNat + (t - q).toNat)) := by ring
      _ = n * (d * 2 ^ (-q).toNat * 2 ^ t.toNat) := by rw [exponents]; ring

/-- Rounding a quotient gives the double nearest to it, with the sign. -/
theorem ofModel_pack_roundWithAccuracy (s : Sign) (fine : q ≤ spacing (n / d) q) :
    Float.ofModel (.pack (roundWithAccuracy .binary64 s (n / d) q (accuracyOfFraction (n % d) d))) =
      withSign (isNegative s) (nearest (n <<< q.toNat) (d <<< (-q).toNat)) := by
  have shiftedN : 0 < n <<< q.toNat := Nat.shiftLeft_pos_iff.mpr posN
  have shiftedD : 0 < d <<< (-q).toNat := Nat.shiftLeft_pos_iff.mpr posD
  have spaced := quotientSpacing_shifted posN posD fine
  have rounded := quotientSignificand_shifted posN posD fine
  have most := quotientSignificand_le shiftedN shiftedD
  have full := le_quotientSignificand shiftedN shiftedD
  have least : -1074 ≤ spacing (n / d) q := le_max_right _ _
  rw [nearest_eq_ofWord shiftedN, spaced, ← ofModel_pack_carried s most least ?_]
  · congr 2
    unfold roundWithAccuracy carried
    rw [shiftToTargetExponent_quotient n posD q, max_eq_right fine]
    dsimp only
    rw [roundedMantissa_extended n (Nat.mul_pos posD (Nat.two_pow_pos _)), ← rounded,
      shiftToTargetExponent_rounded most least]
    split
    · rfl
    · rfl
  · rw [spaced] at full
    unfold quotientSpacing at spaced
    omega

end Quotient

/-! ## Rounded numbers -/

/-- A number with its sign changed, if it is to be negative. -/
def signed (negative : Bool) (v : ℚ) : ℚ :=
  if negative then -v else v

/-- A number is rounded to the double nearest to it. A zero may have either sign. -/
inductive Rounds : ℚ → Float → Prop
  | intro (negative : Bool) (n : Nat) {d : Nat} : 0 < d →
      Rounds (signed negative (n / d)) (withSign negative (nearest n d))

theorem abs_signed (negative : Bool) (v : ℚ) : |signed negative v| = |v| := by
  cases negative with
  | false => rfl
  | true => exact abs_neg v

theorem signed_mul (a b : Bool) (v w : ℚ) :
    signed a v * signed b w = signed (a ^^ b) (v * w) := by
  cases a <;> cases b <;> simp [signed]

theorem signed_div (a b : Bool) (v w : ℚ) :
    signed a v / signed b w = signed (a ^^ b) (v / w) := by
  cases a <;> cases b <;> simp [signed, neg_div, div_neg]

theorem cast_apply (s : Sign) (m : Nat) (q : Int) :
    ((s.apply m : Int) : ℚ) * 2 ^ q = signed (isNegative s) (m * 2 ^ q) := by
  cases s <;> simp [Sign.apply, isNegative, signed]

theorem value_of_parts {x : Float} {negative : Bool} {m : Nat} {q : Int}
    (h : parts x = .finite negative m q) : value x = signed negative (m * 2 ^ q) := by
  rw [value, h]
  cases negative <;> rfl

namespace Rounds

variable {v : ℚ} {x : Float}

/-- A rounded number is finite unless it is beyond the doubles. -/
theorem isFinite_iff (h : Rounds v x) : x.isFinite = true ↔ |v| < overflow := by
  cases h with
  | intro negative n pos =>
      rw [isFinite_withSign, isFinite_nearest_iff n pos, abs_signed, abs_of_nonneg (by positivity)]

/-- A rounded number may be infinite, but it is never undefined. -/
theorem isNaN (h : Rounds v x) : x.isNaN = false := by
  cases h with
  | intro negative n pos =>
      cases finite : (withSign negative (nearest n _)).isFinite with
      | true => exact isNaN_of_isFinite finite
      | false =>
          rw [isFinite_withSign] at finite
          have word := mt (isFinite_nearest_iff_lt n _).mpr (by rw [finite]; decide)
          rw [nearest, (nearestWord_le n _).antisymm (Nat.le_of_not_lt word)]
          cases negative <;> decide +kernel

end Rounds

/-- A finite double is its own rounding. -/
theorem rounds_value {x : Float} (h : x.isFinite) : Rounds (value x) x := by
  obtain ⟨negative, m, q, parted⟩ := exists_parts_of_isFinite h
  have product : (m : ℚ) * (2 : ℚ) ^ q =
      ((m <<< q.toNat : Nat) : ℚ) / ((1 <<< (-q).toNat : Nat) : ℚ) := by
    rw [cast_shifted, Nat.cast_one, div_one]
  have one : 0 < 1 <<< (-q).toNat := Nat.shiftLeft_pos_iff.mpr Nat.one_pos
  have rounded := Rounds.intro negative (m <<< q.toNat) one
  rw [← product, ← value_of_parts parted, ← ofProduct, withSign_ofProduct parted] at rounded
  exact rounded

theorem rounds_zero (s : Sign) : Rounds 0 (Float.ofModel (.pack (.zero s))) := by
  have rounded := Rounds.intro (isNegative s) 0 Nat.one_pos
  have zero : signed (isNegative s) ((0 : Nat) / (1 : Nat)) = 0 := by
    cases s <;> simp [signed, isNegative]
  have same : Float.ofModel (.pack (.zero s)) = withSign (isNegative s) (nearest 0 1) := by
    cases s <;> decide +kernel
  rw [zero, ← same] at rounded
  exact rounded

section Quotient

variable {n d m : Nat} {q : Int}

theorem rounds_roundWithAccuracy (s : Sign) (posN : 0 < n) (posD : 0 < d)
    (fine : q ≤ spacing (n / d) q) :
    Rounds (signed (isNegative s) (n / d * 2 ^ q))
      (Float.ofModel
        (.pack (roundWithAccuracy .binary64 s (n / d) q (accuracyOfFraction (n % d) d)))) := by
  have shifted : 0 < d <<< (-q).toNat := Nat.shiftLeft_pos_iff.mpr posD
  rw [ofModel_pack_roundWithAccuracy posN posD s fine, ← cast_shifted]
  exact .intro _ _ shifted

theorem rounds_exact (s : Sign) (pos : 0 < m) (fine : q ≤ spacing m q) :
    Rounds (signed (isNegative s) (m * 2 ^ q))
      (Float.ofModel (.pack (roundWithAccuracy .binary64 s m q .exact))) := by
  have rounded := rounds_roundWithAccuracy (d := 1) s pos Nat.one_pos (q := q)
    (by rwa [Nat.div_one])
  rw [Nat.div_one, Nat.mod_one, Nat.cast_one, div_one] at rounded
  exact rounded

theorem spacing_shiftLeft (pos : 0 < m) (k : Nat) : spacing (m <<< k) (q - k) = spacing m q := by
  rw [spacing, log2_shiftLeft pos, spacing]
  congr 1
  omega

/-- A smaller exponent with a longer significand makes the same number. -/
theorem shiftLeft_mul_zpow (m k : Nat) (q : Int) :
    ((m <<< k : Nat) : ℚ) * 2 ^ (q - k) = m * 2 ^ q := by
  rw [Nat.shiftLeft_eq, Nat.cast_mul, Nat.cast_pow, Nat.cast_two, mul_assoc, ← zpow_natCast,
    ← zpow_add₀ two_ne_zero]
  congr 2
  omega

theorem rounds_round (s : Sign) (pos : 0 < m) (q : Int) :
    Rounds (signed (isNegative s) (m * 2 ^ q))
      (Float.ofModel (.pack (UnpackedFloat.round .binary64 s m q))) := by
  unfold UnpackedFloat.round decreaseExponent
  dsimp only
  rw [targetExponent_eq, ← shiftLeft_mul_zpow m (q - spacing m q).toNat q]
  refine rounds_exact s ?_ ?_
  · exact Nat.shiftLeft_pos_iff.mpr pos
  · rw [spacing_shiftLeft pos]
    omega

end Quotient

theorem rounds_normalize (M : Int) (q : Int) (s : Sign) :
    Rounds (M * 2 ^ q) (Float.ofModel (.pack (UnpackedFloat.normalize .binary64 M q s))) := by
  unfold UnpackedFloat.normalize
  rcases Int.lt_trichotomy M 0 with negative | rfl | positive
  · obtain ⟨m, rfl⟩ := Int.eq_negSucc_of_lt_zero negative
    have order : compare (Int.negSucc m) 0 = .lt := Int.compare_eq_lt.mpr negative
    have size : (-Int.negSucc m).toNat = m + 1 := by omega
    have signedValue : ((Int.negSucc m : Int) : ℚ) * 2 ^ q =
        signed (isNegative .negative) ((m + 1 : Nat) * 2 ^ q) := by
      rw [← cast_apply]
      rfl
    rw [order, size, signedValue]
    exact rounds_round .negative (Nat.succ_pos m) q
  · rw [Int.cast_zero, zero_mul]
    exact rounds_zero s
  · obtain ⟨m, rfl⟩ := Int.eq_ofNat_of_zero_le positive.le
    have order : compare (m : Int) 0 = .gt := Int.compare_eq_gt.mpr positive
    have signedValue : ((m : Int) : ℚ) * 2 ^ q = signed (isNegative .positive) (m * 2 ^ q) := by
      rw [← cast_apply]
      rfl
    rw [order, Int.toNat_natCast, signedValue]
    exact rounds_round .positive (by omega) q

end PrintPath.Number
