import Mathlib
import PrintPath.Proofs.Number.Nearest
import PrintPath.Proofs.Number.Unpacked

/-!
# A double and its parts

A double is determined by its parts. The significand of a finite double has all
its bits, unless the exponent is the least one. The double nearest to the product
of the parts is the one they were read from, so nothing is lost when a double is
taken apart and put together again.
-/

namespace PrintPath.Number

open Float.Model Float.Model.UnpackedFloat

/-! ## Parts determine a double -/

def signOf : Bool → Sign
  | true => .negative
  | false => .positive

theorem signOf_isNegative (s : Sign) : signOf (isNegative s) = s := by
  cases s <;> rfl

/-- The unpacked double with given parts. -/
def ofParts : Parts → UnpackedFloat
  | .nan => .notANumber
  | .infinity negative => .infinity (signOf negative)
  | .finite negative m q =>
    if pos : 0 < m then .finite (signOf negative) m q pos else .zero (signOf negative)

theorem ofParts_partsOf (u : UnpackedFloat) : ofParts (partsOf u) = u := by
  cases u with
  | notANumber => rfl
  | infinity s => exact congrArg UnpackedFloat.infinity (signOf_isNegative s)
  | zero s => exact congrArg UnpackedFloat.zero (signOf_isNegative s)
  | finite s m q pos =>
      rw [partsOf_finite, ofParts, dif_pos pos, signOf_isNegative]

theorem partsOf_injective : Function.Injective partsOf :=
  Function.LeftInverse.injective ofParts_partsOf

theorem unpack_injective {x y : Float} (same : x.toModel.unpack = y.toModel.unpack) : x = y :=
  Float.toBits_inj.mp <| UInt64.toBitVec_inj.mp <|
    (unpack_inj_of_valid x.toModel.valid y.toModel.valid).mp same

/-- Doubles with the same parts are the same. -/
theorem parts_injective : Function.Injective parts := by
  intro x y same
  rw [parts_eq, parts_eq] at same
  exact unpack_injective (partsOf_injective same)

theorem unpack_of_parts {x : Float} {u : UnpackedFloat} (h : parts x = partsOf u) :
    x.toModel.unpack = u :=
  partsOf_injective ((parts_eq x).symm.trans h)

theorem exists_parts_of_isFinite {x : Float} (h : x.isFinite) :
    ∃ negative m q, parts x = .finite negative m q := by
  have number : x.toModel.unpack.isFinite := h
  rw [parts_eq]
  revert number
  cases x.toModel.unpack with
  | notANumber => exact fun number => absurd number Bool.false_ne_true
  | infinity s => exact fun number => absurd number Bool.false_ne_true
  | zero s => exact fun _ => ⟨_, _, _, rfl⟩
  | finite s m q pos => exact fun _ => ⟨_, _, _, rfl⟩

theorem isFinite_of_parts {x : Float} {negative : Bool} {m : Nat} {q : Int}
    (h : parts x = .finite negative m q) : x.isFinite = true := by
  show x.toModel.unpack.isFinite = true
  rw [parts_eq] at h
  revert h
  cases x.toModel.unpack with
  | notANumber => exact fun h => nomatch h
  | infinity s => exact fun h => nomatch h
  | zero s => exact fun _ => rfl
  | finite s m q pos => exact fun _ => rfl

theorem isNegative_neg (s : Sign) : isNegative (-s) = !isNegative s := by
  cases s <;> rfl

/-- The parts of a finite double with the other sign. -/
theorem partsOf_neg {u : UnpackedFloat} {negative : Bool} {m : Nat} {q : Int}
    (h : partsOf u = .finite negative m q) : partsOf u.neg = .finite (!negative) m q := by
  cases u with
  | notANumber => cases h
  | infinity s => cases h
  | zero s =>
      cases h
      exact congrArg (Parts.finite · 0 (-1074)) (isNegative_neg s)
  | finite s m q pos =>
      cases h
      exact congrArg (Parts.finite · m q) (isNegative_neg s)

/-! ## The range of the parts -/

/-- What the parts of a finite double fulfil. The significand has all its bits, unless
the exponent cannot be less. -/
structure InRange (m : Nat) (q : Int) : Prop where
  fits : m < 2 ^ 53
  least : -1074 ≤ q
  most : q ≤ 971
  full : 2 ^ 52 ≤ m ∨ q = -1074

theorem inRange_of_parts {x : Float} {negative : Bool} {m : Nat} {q : Int}
    (h : parts x = .finite negative m q) : InRange m q := by
  obtain ⟨fits, least, most⟩ := bounds_of_parts h
  refine ⟨fits, least, most, ?_⟩
  unfold parts at h
  dsimp only at h
  split at h
  · split at h <;> cases h
  · split at h
    · cases h
      exact Or.inr rfl
    · cases h
      exact Or.inl (Nat.le_add_right _ _)

/-! ## Packing -/

/-- An unpacked double loses nothing when it is packed, unless it is finite and its
parts are out of range. -/
def Fits : UnpackedFloat → Prop
  | .finite _ m q _ => InRange m q
  | _ => True

theorem fits_unpack (x : Float) : Fits x.toModel.unpack := by
  cases unpacked : x.toModel.unpack with
  | notANumber => trivial
  | infinity s => trivial
  | zero s => trivial
  | finite s m q pos =>
      have parted : parts x = .finite (isNegative s) m q := by
        rw [parts_eq, unpacked, partsOf_finite]
      exact inRange_of_parts parted

section Components

variable {s : Sign} {e : BitVec 11} {f : BitVec 52} {m : Nat} {q : Int}

theorem unpack_components_of_normal (pos : 0 < m) (mantissa : m = leadingBit + f.toNat)
    (exponent : q = e.toNat - 1075) (least : 0 < e.toNat) (most : e.toNat < 2047) :
    UnpackedFloat.unpack .binary64 (packComponents .binary64 s e f) = .finite s m q pos := by
  generalize packed : packComponents .binary64 s e f = word
  have field : unpackExponent word = e := by rw [← packed, unpackExponent_packComponents]
  have fraction : unpackMantissa word = f := by rw [← packed, unpackMantissa_packComponents]
  have sign : Sign.ofBitVec (unpackSign word) = s := by
    rw [← packed, unpackSign_packComponents, Sign.ofBitVec_toBitVec]
  have other : unpackExponent word ≠ -1#11 := by
    intro last
    rw [field] at last
    rw [last] at most
    exact absurd most (by decide)
  have more : unpackExponent word ≠ 0#11 := by
    intro zero
    rw [field] at zero
    rw [zero] at least
    exact absurd least (by decide)
  obtain ⟨_, unpacked⟩ := unpack_of_normal other more
  rw [unpacked, sign]
  refine finite_congr ?_ ?_
  · rw [fraction, mantissa]
  · rw [field, exponent]

theorem unpack_components_of_subnormal (pos : 0 < m) (mantissa : m = f.toNat) :
    UnpackedFloat.unpack .binary64 (packComponents .binary64 s 0#11 f) =
      .finite s m (-1074) pos := by
  generalize packed : packComponents .binary64 s 0#11 f = word
  have field : unpackExponent word = 0#11 := by rw [← packed, unpackExponent_packComponents]
  have fraction : unpackMantissa word = f := by rw [← packed, unpackMantissa_packComponents]
  have sign : Sign.ofBitVec (unpackSign word) = s := by
    rw [← packed, unpackSign_packComponents, Sign.ofBitVec_toBitVec]
  have some : unpackMantissa word ≠ 0#52 := by
    intro zero
    rw [fraction] at zero
    rw [mantissa, zero] at pos
    exact absurd pos (by decide)
  obtain ⟨_, unpacked⟩ := unpack_of_subnormal field some
  rw [unpacked, sign]
  refine finite_congr ?_ rfl
  rw [fraction, mantissa]

theorem unpack_pack_finite (h : InRange m q) (s : Sign) (pos : 0 < m) :
    UnpackedFloat.unpack .binary64 (UnpackedFloat.pack .binary64 (.finite s m q pos)) =
      .finite s m q pos := by
  obtain ⟨fits, least, most, full⟩ := h
  unfold UnpackedFloat.pack
  dsimp only
  rw [exponentBias_binary64, if_neg (by omega)]
  by_cases normal : 2 ^ 52 ≤ m
  · have bits : m.log2 + 1 = Format.binary64.mantissaBits := by
      have low := (Nat.le_log2 pos.ne').mpr normal
      have high := (Nat.log2_lt pos.ne').mpr fits
      show m.log2 + 1 = 53
      omega
    have field : (BitVec.ofNat 11 (q + (1023 : Nat) + (52 : Nat)).toNat).toNat =
        (q + 1075).toNat := by
      rw [BitVec.toNat_ofNat]
      omega
    have fraction : (BitVec.ofNat 52 m).toNat = m - leadingBit := by
      rw [BitVec.toNat_ofNat]
      unfold leadingBit
      omega
    rw [if_pos bits]
    refine unpack_components_of_normal pos ?_ ?_ ?_ ?_
    · rw [fraction]
      unfold leadingBit
      omega
    · rw [field]
      omega
    · rw [field]
      omega
    · rw [field]
      omega
  · obtain rfl : q = -1074 := full.resolve_left normal
    have bits : m.log2 + 1 ≠ Format.binary64.mantissaBits := by
      have high := (Nat.log2_lt pos.ne').mpr (Nat.lt_of_not_le normal)
      show m.log2 + 1 ≠ 53
      omega
    rw [if_neg bits]
    refine unpack_components_of_subnormal pos ?_
    rw [BitVec.toNat_ofNat]
    exact (Nat.mod_eq_of_lt (Nat.lt_of_not_le normal)).symm

end Components

theorem unpack_pack {u : UnpackedFloat} (h : Fits u) :
    UnpackedFloat.unpack .binary64 (UnpackedFloat.pack .binary64 u) = u := by
  cases u with
  | notANumber => exact unpack_packedNaN
  | infinity s => cases s <;> rfl
  | zero s => exact unpack_packedZero
  | finite s m q pos => exact unpack_pack_finite h s pos

/-! ## Opposite doubles -/

theorem unpack_neg (x : Float) : (-x).toModel.unpack = x.toModel.unpack.neg := by
  have fits : Fits x.toModel.unpack.neg := by
    have given := fits_unpack x
    revert given
    cases x.toModel.unpack <;> exact id
  exact unpack_pack fits

theorem parts_neg {x : Float} {negative : Bool} {m : Nat} {q : Int}
    (h : parts x = .finite negative m q) : parts (-x) = .finite (!negative) m q := by
  rw [parts_eq, unpack_neg]
  exact partsOf_neg ((parts_eq x).symm.trans h)

/-- A double is as finite as its opposite. -/
theorem isFinite_neg (x : Float) : (-x).isFinite = x.isFinite := by
  show (-x).toModel.unpack.isFinite = x.toModel.unpack.isFinite
  rw [unpack_neg]
  cases x.toModel.unpack <;> rfl

theorem isFinite_withSign (negative : Bool) (x : Float) :
    (withSign negative x).isFinite = x.isFinite := by
  cases negative with
  | false => rfl
  | true => exact isFinite_neg x

/-! ## Words -/

theorem toBits_ofBits {w : Nat} (h : w ≤ (fieldSize - 1) * leadingBit) :
    (Float.ofBits (UInt64.ofNat w)).toBits.toNat = w := by
  have word : (UInt64.ofNat w).toBitVec.toNat = w := by
    rw [UInt64.toNat_toBitVec, UInt64.toNat_ofNat']
    exact Nat.mod_eq_of_lt (h.trans_lt (by decide))
  have number : ¬ @isNaNBits .binary64 (UInt64.ofNat w).toBitVec := by
    rw [isNaNBits, decide_eq_true_eq, unpackExponent_eq_last_iff, ne_eq,
      unpackMantissa_eq_zero_iff, word]
    -- The words of the undefined doubles lie above that of the infinity.
    unfold fieldSize leadingBit at *
    omega
  have same := @pack_unpack .binary64 (UInt64.ofNat w).toBitVec (by decide)
  rw [if_neg number] at same
  exact (congrArg BitVec.toNat same).trans word

theorem nearestWord_le (n d : Nat) : nearestWord n d ≤ (fieldSize - 1) * leadingBit := by
  unfold nearestWord
  split
  · exact Nat.zero_le _
  · exact min_le_right _ _

theorem toBits_nearest (n d : Nat) : (nearest n d).toBits.toNat = nearestWord n d :=
  toBits_ofBits (nearestWord_le n d)

/-! ## Taking apart and putting together -/

/-- The double nearest to `m · 2^q`. -/
def ofProduct (m : Nat) (q : Int) : Float :=
  nearest (m <<< q.toNat) (1 <<< (-q).toNat)

/-- The exponent of the doubles around `m · 2^q`. -/
def spacing (m : Nat) (q : Int) : Int :=
  max (m.log2 + q - 52) (-1074)

theorem log2_lt_of_lt {r k : Nat} (pos : 0 < k) (h : r < 2 ^ k) : r.log2 < k := by
  by_cases zero : r = 0
  · rwa [zero, Nat.log2_zero]
  · exact (Nat.log2_lt zero).mpr h

section InRange

variable {m : Nat} {q : Int}

theorem log2_shiftLeft (pos : 0 < m) (k : Nat) : (m <<< k).log2 = m.log2 + k := by
  rw [Nat.shiftLeft_eq, Nat.log2_eq_iff (Nat.mul_pos pos (Nat.two_pow_pos k)).ne']
  constructor
  · rw [pow_add]
    exact Nat.mul_le_mul_right _ (Nat.log2_self_le pos.ne')
  · rw [Nat.add_right_comm, pow_add]
    exact Nat.mul_lt_mul_of_pos_right Nat.lt_log2_self (Nat.two_pow_pos k)

theorem floorLog2_of_parts (pos : 0 < m) :
    floorLog2 (m <<< q.toNat) (1 <<< (-q).toNat) = m.log2 + q := by
  have reached : (1 <<< (-q).toNat) <<< ((m.log2 : Int) + q).toNat ≤
      (m <<< q.toNat) <<< (-((m.log2 : Int) + q)).toNat := by
    have low := Nat.log2_self_le pos.ne'
    simp only [Nat.shiftLeft_eq, Nat.one_mul, ← Nat.pow_add, Nat.mul_assoc]
    calc 2 ^ ((-q).toNat + ((m.log2 : Int) + q).toNat)
        = 2 ^ m.log2 * 2 ^ (q.toNat + (-((m.log2 : Int) + q)).toNat) := by
          rw [← Nat.pow_add]
          congr 1
          omega
      _ ≤ m * 2 ^ (q.toNat + (-((m.log2 : Int) + q)).toNat) := Nat.mul_le_mul_right _ low
  have exponent : (((m <<< q.toNat).log2 : Int) - ((1 <<< (-q).toNat).log2 : Nat)) =
      m.log2 + q := by
    have one : Nat.log2 1 = 0 := by decide
    rw [log2_shiftLeft pos, log2_shiftLeft Nat.one_pos, one]
    omega
  unfold floorLog2
  dsimp only
  rw [exponent, if_pos reached]

theorem spacing_eq (h : InRange m q) (pos : 0 < m) : spacing m q = q := by
  obtain ⟨fits, least, most, full⟩ := h
  have bits : m.log2 < 53 := log2_lt_of_lt (by decide) fits
  rcases full with full | rfl
  · have normal : 52 ≤ m.log2 := (Nat.le_log2 pos.ne').mpr full
    unfold spacing
    omega
  · unfold spacing
    omega

/-- The word of a double that is not negative. -/
theorem nearestWord_of_inRange (h : InRange m q) :
    nearestWord (m <<< q.toNat) (1 <<< (-q).toNat) = (q + 1074).toNat * leadingBit + m := by
  rcases Nat.eq_zero_or_pos m with rfl | pos
  · obtain rfl : q = -1074 := h.full.resolve_left (by decide)
    rfl
  · have around : max (-1074) (floorLog2 (m <<< q.toNat) (1 <<< (-q).toNat) - 52) = q := by
      rw [floorLog2_of_parts pos, max_comm]
      exact spacing_eq h pos
    have whole :
        roundEven ((m <<< q.toNat) <<< (-q).toNat) ((1 <<< (-q).toNat) <<< q.toNat) = m := by
      simp only [Nat.shiftLeft_eq, Nat.one_mul]
      rw [Nat.mul_assoc, Nat.mul_comm (2 ^ (-q).toNat)]
      exact roundEven_mul m (Nat.mul_pos (Nat.two_pow_pos _) (Nat.two_pow_pos _))
    have some : m <<< q.toNat ≠ 0 := mt Nat.shiftLeft_eq_zero_iff.mp pos.ne'
    obtain ⟨fits, least, most, -⟩ := h
    unfold nearestWord
    rw [if_neg some]
    dsimp only
    rw [around, whole]
    unfold fieldSize leadingBit
    omega

theorem parts_ofProduct (h : InRange m q) : parts (ofProduct m q) = .finite false m q := by
  have word : (ofProduct m q).toBits.toNat = (q + 1074).toNat * leadingBit + m :=
    (toBits_nearest _ _).trans (nearestWord_of_inRange h)
  obtain ⟨fits, least, most, full⟩ := h
  have positive : ¬ signBit ≤ (q + 1074).toNat * leadingBit + m := by
    unfold signBit leadingBit
    omega
  unfold parts
  dsimp only
  rw [word, decide_eq_false positive]
  -- The leading bit of a normal significand carries into the field of the exponent; any
  -- other significand is the word itself.
  by_cases normal : 2 ^ 52 ≤ m
  · have field :
        ((q + 1074).toNat * leadingBit + m) / leadingBit % fieldSize = (q + 1075).toNat := by
      unfold leadingBit fieldSize
      omega
    have fraction : leadingBit + ((q + 1074).toNat * leadingBit + m) % leadingBit = m := by
      unfold leadingBit
      omega
    have exponent : ((q + 1075).toNat : Int) - 1075 = q := by omega
    have last : (q + 1075).toNat ≠ fieldSize - 1 := by
      unfold fieldSize
      omega
    rw [field, if_neg last, if_neg (by omega), fraction, exponent]
  · obtain rfl : q = -1074 := full.resolve_left normal
    have word' : (-1074 + 1074 : Int).toNat * leadingBit + m = m := Nat.zero_add m
    have below : m < leadingBit := Nat.lt_of_not_le normal
    rw [word', Nat.div_eq_of_lt below, Nat.mod_eq_of_lt below]
    rfl

/-- **Nothing is lost in the parts.** A finite double is the one nearest to the product of
its parts, with its sign. -/
theorem withSign_ofProduct {x : Float} {negative : Bool} (h : parts x = .finite negative m q) :
    withSign negative (ofProduct m q) = x := by
  have magnitude := parts_ofProduct (inRange_of_parts h)
  cases negative with
  | false => exact parts_injective (magnitude.trans h.symm)
  | true => exact parts_injective ((parts_neg magnitude).trans h.symm)

end InRange

end PrintPath.Number
