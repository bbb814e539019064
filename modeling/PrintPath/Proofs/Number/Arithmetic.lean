import Mathlib
import PrintPath.Proofs.Number.Rounded

/-!
# Arithmetic on doubles

Finite doubles have exact values, and so have their sum, their difference, their
product and their quotient. Each operation on doubles rounds the exact result.
-/

namespace PrintPath.Number

open Float.Model Float.Model.UnpackedFloat

/-! ## Operations on finite doubles -/

/-- A finite double is a zero or has a significand. -/
theorem unpack_of_isFinite {x : Float} (h : x.isFinite) :
    (∃ s, x.toModel.unpack = .zero s ∧ value x = 0) ∨
      ∃ s m q pos, x.toModel.unpack = .finite s m q pos ∧ InRange m q ∧
        value x = (s.apply m : Int) * 2 ^ q := by
  have number : x.toModel.unpack.isFinite := h
  have fits := fits_unpack x
  cases unpacked : x.toModel.unpack with
  | notANumber => rw [unpacked] at number; cases number
  | infinity s => rw [unpacked] at number; cases number
  | zero s => exact Or.inl ⟨s, rfl, value_of_zero unpacked⟩
  | finite s m q pos =>
      rw [unpacked] at fits
      exact Or.inr ⟨s, m, q, pos, rfl, fits, value_of_finite unpacked⟩

theorem value_neg {x : Float} (h : x.isFinite) : value (-x) = -value x := by
  obtain ⟨negative, m, q, parted⟩ := exists_parts_of_isFinite h
  rw [value_of_parts parted, value_of_parts (parts_neg parted)]
  cases negative <;> simp [signed]

/-- A significand shifted to a smaller exponent. -/
theorem apply_shiftLeft (s : Sign) (m : Nat) {q t : Int} (le : t ≤ q) :
    ((s.apply (m <<< (q - t).toNat : Nat) : Int) : ℚ) * 2 ^ t = (s.apply m : Int) * 2 ^ q := by
  have exponent : q - (q - t).toNat = t := by omega
  have shifted := shiftLeft_mul_zpow m (q - t).toNat q
  rw [exponent] at shifted
  rw [cast_apply, cast_apply, shifted]

theorem ofModel_pack_unpack (x : Float) : Float.ofModel (.pack x.toModel.unpack) = x :=
  unpack_injective (unpack_pack (fits_unpack x))

section Operations

variable {x y : Float}

theorem add_eq_pack (x y : Float) :
    x + y = .ofModel (.pack (UnpackedFloat.add .binary64 x.toModel.unpack y.toModel.unpack)) :=
  rfl

theorem rounds_add (hx : x.isFinite) (hy : y.isFinite) : Rounds (value x + value y) (x + y) := by
  rcases unpack_of_isFinite hx with ⟨s, ux, vx⟩ | ⟨s, m, q, pos, ux, -, vx⟩
  · rcases unpack_of_isFinite hy with ⟨s', uy, vy⟩ | ⟨s', m', q', pos', uy, -, vy⟩
    · rw [add_eq_pack, ux, uy, vx, vy, add_zero]
      unfold UnpackedFloat.add
      dsimp only
      split <;> exact rounds_zero _
    · have same : x + y = y := by
        rw [add_eq_pack, ux]
        conv_rhs => rw [← ofModel_pack_unpack y]
        rw [uy]
        rfl
      rw [same, vx, zero_add]
      exact rounds_value hy
  · rcases unpack_of_isFinite hy with ⟨s', uy, vy⟩ | ⟨s', m', q', pos', uy, -, vy⟩
    · have same : x + y = x := by
        rw [add_eq_pack, uy]
        conv_rhs => rw [← ofModel_pack_unpack x]
        rw [ux]
        rfl
      rw [same, vy, add_zero]
      exact rounds_value hx
    · rw [add_eq_pack, ux, uy, vx, vy, ← apply_shiftLeft s m (min_le_left q q'),
        ← apply_shiftLeft s' m' (min_le_right q q'), ← add_mul, ← Int.cast_add]
      exact rounds_normalize _ _ _

theorem apply_neg (s : Sign) (k : Int) : (-s).apply k = -s.apply k := by
  cases s with
  | negative => exact (neg_neg k).symm
  | positive => rfl

theorem sub_eq_add_opposite (x y : Float) : x - y = x + -y := by
  have unpacked : UnpackedFloat.sub .binary64 x.toModel.unpack y.toModel.unpack =
      UnpackedFloat.add .binary64 x.toModel.unpack (-y).toModel.unpack := by
    rw [unpack_neg]
    cases x.toModel.unpack with
    | notANumber => rfl
    | infinity s =>
        cases y.toModel.unpack with
        | infinity s' => rfl
        | notANumber => rfl
        | zero s' => rfl
        | finite s' m' q' pos' => rfl
    | zero s => cases y.toModel.unpack <;> rfl
    | finite s m q pos =>
        cases y.toModel.unpack with
        | finite s' m' q' pos' =>
            unfold UnpackedFloat.sub UnpackedFloat.add UnpackedFloat.neg
            dsimp only
            rw [apply_neg, Int.sub_eq_add_neg]
        | notANumber => rfl
        | infinity s' => rfl
        | zero s' => rfl
  exact congrArg (fun u => Float.ofModel (.pack u)) unpacked

theorem rounds_sub (hx : x.isFinite) (hy : y.isFinite) : Rounds (value x - value y) (x - y) := by
  have opposite : (-y).isFinite = true := (isFinite_neg y).trans hy
  rw [sub_eq_add_opposite, sub_eq_add_neg, ← value_neg hy]
  exact rounds_add hx opposite

theorem isNegative_mul (s t : Sign) : isNegative (s * t) = (isNegative s ^^ isNegative t) := by
  cases s <;> cases t <;> rfl

theorem isNegative_div (s t : Sign) : isNegative (s / t) = (isNegative s ^^ isNegative t) := by
  cases s <;> cases t <;> rfl

/-- A product has at least the bits of a double, unless both factors are very small. -/
theorem le_spacing_mul {m n : Nat} {q r : Int} (hm : InRange m q) (hn : InRange n r)
    (posM : 0 < m) (posN : 0 < n) : q + r ≤ spacing (m * n) (q + r) := by
  have bits (large : 2 ^ 52 ≤ m ∨ 2 ^ 52 ≤ n) : 52 ≤ (m * n).log2 := by
    rw [Nat.le_log2 (Nat.mul_pos posM posN).ne']
    rcases large with large | large
    · exact large.trans (Nat.le_mul_of_pos_right m posN)
    · exact large.trans (Nat.le_mul_of_pos_left n posM)
  unfold spacing
  rcases hm.full with large | least
  · have := bits (Or.inl large)
    omega
  · rcases hn.full with large | least'
    · have := bits (Or.inr large)
      omega
    · omega

theorem rounds_mul (hx : x.isFinite) (hy : y.isFinite) : Rounds (value x * value y) (x * y) := by
  have packed : x * y = .ofModel (.pack
    (UnpackedFloat.mul .binary64 x.toModel.unpack y.toModel.unpack)) := rfl
  rcases unpack_of_isFinite hx with ⟨s, ux, vx⟩ | ⟨s, m, q, pos, ux, hm, vx⟩
  · rw [packed, ux, vx, zero_mul]
    rcases unpack_of_isFinite hy with ⟨s', uy, vy⟩ | ⟨s', m', q', pos', uy, -, vy⟩
    · rw [uy]
      exact rounds_zero _
    · rw [uy]
      exact rounds_zero _
  · rcases unpack_of_isFinite hy with ⟨s', uy, vy⟩ | ⟨s', m', q', pos', uy, hm', vy⟩
    · rw [packed, ux, uy, vy, mul_zero]
      exact rounds_zero _
    · have product : value x * value y =
          signed (isNegative (s * s')) ((m * m' : Nat) * 2 ^ (q + q')) := by
        rw [vx, vy, cast_apply, cast_apply, signed_mul, isNegative_mul, zpow_add₀ two_ne_zero]
        push_cast
        congr 1
        ring
      rw [packed, ux, uy, product]
      exact rounds_exact _ (Nat.mul_pos pos pos') (le_spacing_mul hm hm' pos pos')

theorem log2_le_log2_div_add {m n : Nat} (pos : 0 < n) :
    m.log2 ≤ (m / n).log2 + n.log2 + 1 := by
  have below : m < 2 ^ ((m / n).log2 + n.log2 + 2) := by
    calc m
        < n * (m / n + 1) := Nat.lt_mul_div_succ m pos
      _ ≤ 2 ^ (n.log2 + 1) * 2 ^ ((m / n).log2 + 1) :=
          Nat.mul_le_mul Nat.lt_log2_self.le Nat.lt_log2_self
      _ = 2 ^ ((m / n).log2 + n.log2 + 2) := by
          rw [← pow_add]
          congr 1
          omega
  have bits := log2_lt_of_lt (Nat.succ_pos ((m / n).log2 + n.log2 + 1)) below
  omega

/-- A dividend that is long enough makes a quotient with at least the bits of a double. -/
theorem le_spacing_div {m n : Nat} {t : Int} (pos : 0 < n)
    (coarse : t ≤ max ((m.log2 : Int) - n.log2 - 53 + t) (-1074)) : t ≤ spacing (m / n) t := by
  have bits := log2_le_log2_div_add (m := m) pos
  unfold spacing
  omega

theorem rounds_div (hx : x.isFinite) (hy : y.isFinite) (nonzero : value y ≠ 0) :
    Rounds (value x / value y) (x / y) := by
  have packed : x / y = .ofModel (.pack
    (UnpackedFloat.div .binary64 x.toModel.unpack y.toModel.unpack)) := rfl
  obtain ⟨s', m', q', pos', uy, -, vy⟩ :=
    (unpack_of_isFinite hy).resolve_left fun ⟨_, _, empty⟩ => nonzero empty
  rcases unpack_of_isFinite hx with ⟨s, ux, vx⟩ | ⟨s, m, q, pos, ux, -, vx⟩
  · rw [packed, ux, uy, vx, zero_div]
    exact rounds_zero _
  · rw [packed, ux, uy]
    unfold UnpackedFloat.div divCore
    dsimp only
    have precision : Format.binary64.mantissaBits = 53 := rfl
    have smallest : Format.binary64.minExponent = -1074 := by decide
    rw [Format.targetExponent, totalExponent, totalExponent, precision, smallest]
    generalize target : min (q - q') (max _ _) = t
    have bits : (m <<< (q - q' - t).toNat).log2 = m.log2 + (q - q' - t).toNat :=
      log2_shiftLeft pos _
    have quotient : value x / value y =
        signed (isNegative (s / s')) (((m <<< (q - q' - t).toNat : Nat) : ℚ) / m' * 2 ^ t) := by
      have exponent : q - q' - (q - q' - t).toNat = t := by omega
      have shifted := shiftLeft_mul_zpow m (q - q' - t).toNat (q - q')
      rw [exponent] at shifted
      rw [vx, vy, cast_apply, cast_apply, signed_div, isNegative_div, div_mul_eq_mul_div, shifted,
        zpow_sub₀ two_ne_zero]
      congr 1
      rw [mul_div_mul_comm, mul_div_right_comm]
    rw [quotient]
    refine rounds_roundWithAccuracy _ ?_ pos' (le_spacing_div pos' ?_)
    · exact Nat.shiftLeft_pos_iff.mpr pos
    · omega

/-- The difference of finite doubles may be infinite, but it is never undefined. -/
theorem isNaN_sub (hx : x.isFinite) (hy : y.isFinite) : (x - y).isNaN = false :=
  (rounds_sub hx hy).isNaN

/-- The difference of finite doubles is finite unless it is beyond the doubles. -/
theorem isFinite_sub_iff (hx : x.isFinite) (hy : y.isFinite) :
    (x - y).isFinite = true ↔ |value x - value y| < overflow :=
  (rounds_sub hx hy).isFinite_iff

end Operations

end PrintPath.Number
