import Mathlib.Algebra.Order.Field.Power
import Mathlib.Data.Rat.Cast.Order
import PrintPath.Number.Binary64

/-!
# Doubles and their parts

Arithmetic on doubles works on their unpacked form, a sign with a significand
and an exponent. It is what `parts` reads off the word, and it tells the number
that a finite double stands for.
-/

namespace PrintPath.Number

open Float.Model Float.Model.UnpackedFloat

/-! ## The three fields of a word -/

section Word

variable (word : BitVec Format.binary64.numBits)

theorem toNat_unpackMantissa : (unpackMantissa word).toNat = word.toNat % leadingBit := by
  simp [unpackMantissa, leadingBit]

theorem toNat_unpackExponent :
    (unpackExponent word).toNat = word.toNat / leadingBit % fieldSize := by
  simp [unpackExponent, Nat.shiftRight_eq_div_pow, leadingBit, fieldSize]

theorem toNat_unpackSign : (unpackSign word).toNat = word.toNat / signBit := by
  have bound : word.toNat < 2 ^ 64 := word.isLt
  have single : word.toNat / 2 ^ 63 < 2 := by omega
  show (word.extractLsb 63 63).toNat = word.toNat / 2 ^ 63
  rw [BitVec.extractLsb_toNat, Nat.shiftRight_eq_div_pow]
  exact Nat.mod_eq_of_lt single

theorem unpackSign_eq_zero_iff : unpackSign word = 0#1 ↔ ¬ signBit ≤ word.toNat := by
  rw [← BitVec.toNat_inj, toNat_unpackSign, Nat.not_le]
  exact Nat.div_eq_zero_iff_lt (by decide)

theorem unpackMantissa_eq_zero_iff :
    unpackMantissa word = 0#52 ↔ word.toNat % leadingBit = 0 := by
  rw [← BitVec.toNat_inj, toNat_unpackMantissa]
  rfl

theorem unpackExponent_eq_zero_iff :
    unpackExponent word = 0#11 ↔ word.toNat / leadingBit % fieldSize = 0 := by
  rw [← BitVec.toNat_inj, toNat_unpackExponent]
  rfl

theorem unpackExponent_eq_last_iff :
    unpackExponent word = -1#11 ↔ word.toNat / leadingBit % fieldSize = fieldSize - 1 := by
  rw [← BitVec.toNat_inj, toNat_unpackExponent]
  rfl

end Word

/-- A normal significand has a leading bit that the word leaves out. -/
theorem toNat_leading_append (fraction : BitVec 52) :
    (1#1 ++ fraction).toNat = leadingBit + fraction.toNat := by
  have bound : fraction.toNat < 2 ^ 52 := fraction.isLt
  rw [BitVec.toNat_append, ← Nat.shiftLeft_add_eq_or_of_lt bound]
  rfl

def isNegative : Sign → Bool
  | .negative => true
  | .positive => false

theorem isNegative_unpackSign (word : BitVec Format.binary64.numBits) :
    isNegative (.ofBitVec (unpackSign word)) = decide (signBit ≤ word.toNat) := by
  by_cases negative : signBit ≤ word.toNat
  · have set : unpackSign word ≠ 0#1 := fun h => (unpackSign_eq_zero_iff word).mp h negative
    rw [Sign.ofBitVec, if_neg set, decide_eq_true negative]
    rfl
  · rw [Sign.ofBitVec, if_pos ((unpackSign_eq_zero_iff word).mpr negative),
      decide_eq_false negative]
    rfl

/-! ## Unpacking a word -/

/-- The parts of an unpacked double. -/
def partsOf : UnpackedFloat → Parts
  | .notANumber => .nan
  | .infinity s => .infinity (isNegative s)
  | .zero s => .finite (isNegative s) 0 (-1074)
  | .finite s m q _ => .finite (isNegative s) m q

theorem partsOf_zero (s : Sign) :
    partsOf (.zero s) = .finite (isNegative s) 0 (-1074) := rfl

theorem partsOf_finite (s : Sign) {m : Nat} {q : Int} (pos : 0 < m) :
    partsOf (.finite s m q pos) = .finite (isNegative s) m q := rfl

theorem finite_congr {s : Sign} {m n : Nat} {q r : Int} {pos : 0 < m} {pos' : 0 < n}
    (significand : m = n) (exponent : q = r) :
    UnpackedFloat.finite s m q pos = .finite s n r pos' := by
  subst significand exponent
  rfl

section Word

variable {word : BitVec Format.binary64.numBits}

theorem unpack_of_infinity (last : unpackExponent word = -1#11)
    (empty : unpackMantissa word = 0#52) :
    UnpackedFloat.unpack .binary64 word = .infinity (.ofBitVec (unpackSign word)) := by
  unfold UnpackedFloat.unpack
  dsimp only
  rw [if_pos last, if_pos empty]

theorem unpack_of_nan (last : unpackExponent word = -1#11)
    (payload : unpackMantissa word ≠ 0#52) :
    UnpackedFloat.unpack .binary64 word = .notANumber := by
  unfold UnpackedFloat.unpack
  dsimp only
  rw [if_pos last, if_neg payload]

theorem unpack_of_zero (least : unpackExponent word = 0#11)
    (empty : unpackMantissa word = 0#52) :
    UnpackedFloat.unpack .binary64 word = .zero (.ofBitVec (unpackSign word)) := by
  have other : ¬ unpackExponent word = -1#11 := by
    rw [least]
    decide
  unfold UnpackedFloat.unpack
  dsimp only
  rw [if_neg other, if_pos least, dif_pos empty]

theorem unpack_of_subnormal (least : unpackExponent word = 0#11)
    (fraction : unpackMantissa word ≠ 0#52) :
    ∃ pos, UnpackedFloat.unpack .binary64 word =
      .finite (.ofBitVec (unpackSign word)) (unpackMantissa word).toNat (-1074) pos := by
  have other : ¬ unpackExponent word = -1#11 := by
    rw [least]
    decide
  -- A subnormal double has the exponent of the smallest normal ones.
  have exponent :
      ((unpackExponent word).toNat : Int) - ((1023 : Nat) + (52 : Nat)) + 1 = -1074 := by
    rw [least]
    rfl
  have pos : 0 < (unpackMantissa word).toNat :=
    Nat.pos_of_ne_zero fun zero => fraction (BitVec.eq_of_toNat_eq zero)
  refine ⟨pos, ?_⟩
  unfold UnpackedFloat.unpack
  dsimp only
  rw [if_neg other, if_pos least, dif_neg fraction]
  exact finite_congr rfl exponent

theorem unpack_of_normal (other : unpackExponent word ≠ -1#11)
    (more : unpackExponent word ≠ 0#11) :
    ∃ pos, UnpackedFloat.unpack .binary64 word =
      .finite (.ofBitVec (unpackSign word)) (leadingBit + (unpackMantissa word).toNat)
        ((unpackExponent word).toNat - 1075) pos := by
  refine ⟨Nat.add_pos_left (by decide) _, ?_⟩
  unfold UnpackedFloat.unpack
  dsimp only
  rw [if_neg other, if_neg more]
  exact finite_congr (toNat_leading_append _) rfl

end Word

/-- The parts of a double by the fields of its word. -/
def partsOfFields (word : BitVec Format.binary64.numBits) : Parts :=
  let negative := isNegative (.ofBitVec (unpackSign word))
  if unpackExponent word = -1#11 then
    if unpackMantissa word = 0#52 then .infinity negative else .nan
  else if unpackExponent word = 0#11 then
    .finite negative (unpackMantissa word).toNat (-1074)
  else
    .finite negative (leadingBit + (unpackMantissa word).toNat)
      ((unpackExponent word).toNat - 1075)

theorem parts_eq_fields (x : Float) : parts x = partsOfFields x.toModel.toBits.toBitVec := by
  have word : x.toBits.toNat = x.toModel.toBits.toBitVec.toNat := rfl
  unfold parts partsOfFields
  rw [toNat_unpackMantissa, toNat_unpackExponent]
  simp only [word, ← unpackExponent_eq_last_iff, ← unpackExponent_eq_zero_iff,
    ← unpackMantissa_eq_zero_iff, ← isNegative_unpackSign]

theorem partsOf_unpack (word : BitVec Format.binary64.numBits) :
    partsOf (UnpackedFloat.unpack .binary64 word) = partsOfFields word := by
  unfold partsOfFields
  dsimp only
  by_cases last : unpackExponent word = -1#11
  · rw [if_pos last]
    by_cases empty : unpackMantissa word = 0#52
    · rw [if_pos empty, unpack_of_infinity last empty]
      rfl
    · rw [if_neg empty, unpack_of_nan last empty]
      rfl
  · rw [if_neg last]
    by_cases least : unpackExponent word = 0#11
    · rw [if_pos least]
      by_cases empty : unpackMantissa word = 0#52
      · rw [unpack_of_zero least empty, partsOf_zero, empty]
        rfl
      · obtain ⟨_, unpacked⟩ := unpack_of_subnormal least empty
        rw [unpacked, partsOf_finite]
    · obtain ⟨_, unpacked⟩ := unpack_of_normal last least
      rw [if_neg least, unpacked, partsOf_finite]

/-- The parts read off the word are those that arithmetic works on. -/
theorem parts_eq (x : Float) : parts x = partsOf x.toModel.unpack :=
  (parts_eq_fields x).trans (partsOf_unpack _).symm

/-! ## Finite doubles -/

/-- The rational number that a finite double stands for. -/
def value (x : Float) : ℚ :=
  match parts x with
  | .finite false m q => m * 2 ^ q
  | .finite true m q => -(m * 2 ^ q)
  | _ => 0

theorem value_of_zero {x : Float} {s : Sign} (h : x.toModel.unpack = .zero s) : value x = 0 := by
  rw [value, parts_eq, h, partsOf_zero]
  cases s <;> simp [isNegative]

theorem value_of_finite {x : Float} {s : Sign} {m : Nat} {q : Int} {pos : 0 < m}
    (h : x.toModel.unpack = .finite s m q pos) : value x = (s.apply m : Int) * 2 ^ q := by
  rw [value, parts_eq, h, partsOf_finite]
  cases s with
  | negative => simp [isNegative, Sign.apply]
  | positive => simp [isNegative, Sign.apply]

theorem bounds_of_parts {x : Float} {negative : Bool} {m : Nat} {q : Int}
    (h : parts x = .finite negative m q) : m < 2 ^ 53 ∧ -1074 ≤ q ∧ q ≤ 971 := by
  have fraction : x.toBits.toNat % leadingBit < 2 ^ 52 := Nat.mod_lt _ (by decide)
  have field : x.toBits.toNat / leadingBit % fieldSize < 2048 := Nat.mod_lt _ (by decide)
  unfold parts at h
  dsimp only at h
  split at h
  · split at h <;> cases h
  · -- The last value of the field is taken by the infinities and the undefined double.
    next other =>
      have other : x.toBits.toNat / leadingBit % fieldSize ≠ 2047 := other
      split at h
      · cases h
        omega
      · cases h
        have leading : leadingBit = 2 ^ 52 := rfl
        omega

/-! ## Packing -/

theorem isFinite_unpack {word : BitVec Format.binary64.numBits}
    (other : unpackExponent word ≠ -1#11) :
    (UnpackedFloat.unpack .binary64 word).isFinite = true := by
  by_cases least : unpackExponent word = 0#11
  · by_cases empty : unpackMantissa word = 0#52
    · rw [unpack_of_zero least empty]
      rfl
    · obtain ⟨_, unpacked⟩ := unpack_of_subnormal least empty
      rw [unpacked]
      rfl
  · obtain ⟨_, unpacked⟩ := unpack_of_normal other least
    rw [unpacked]
    rfl

theorem exponentBias_binary64 : Format.binary64.exponentBias = 1023 := rfl

theorem pack_of_great {s : Sign} {m : Nat} {q : Int} {pos : 0 < m} (great : ¬ q ≤ 971) :
    UnpackedFloat.pack .binary64 (.finite s m q pos) = packedInfinity .binary64 s := by
  unfold UnpackedFloat.pack
  dsimp only
  rw [exponentBias_binary64, if_pos (by omega)]

theorem isNaN_of_isFinite {x : Float} (h : x.isFinite) : x.isNaN = false := by
  have number : x.toModel.unpack.isFinite := h
  show x.toModel.unpack.isNaN = false
  revert number
  cases x.toModel.unpack with
  | notANumber => exact fun number => absurd number Bool.false_ne_true
  | infinity s => exact fun _ => rfl
  | zero s => exact fun _ => rfl
  | finite s m q pos => exact fun _ => rfl

end PrintPath.Number
