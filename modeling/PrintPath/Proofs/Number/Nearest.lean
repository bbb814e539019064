import Mathlib.Data.Int.Log
import Mathlib.Data.Rat.Floor
import PrintPath.Number.Binary64

/-!
# The double nearest to a quotient

Which double is nearest to `n / d` depends on the quotient alone and not on how
it is written. The spacing of the doubles around it comes from a logarithm, and
a significand is a rounding; neither changes when numerator and denominator do
and their quotient does not.
-/

namespace PrintPath.Number

/-! ## Rounding a quotient -/

theorem roundEven_mul_right (n : Nat) {c : Nat} (pos : 0 < c) (d : Nat) :
    roundEven (n * c) (d * c) = roundEven n d := by
  have below : 2 * (n % d * c) < d * c ↔ 2 * (n % d) < d := by
    rw [← Nat.mul_assoc, Nat.mul_lt_mul_right pos]
  have above : d * c < 2 * (n % d * c) ↔ d < 2 * (n % d) := by
    rw [← Nat.mul_assoc, Nat.mul_lt_mul_right pos]
  unfold roundEven
  dsimp only
  simp only [Nat.mul_div_mul_right n d pos, Nat.mul_mod_mul_right, below, above]

theorem roundEven_congr {n d n' d' : Nat} (pos : 0 < d) (pos' : 0 < d')
    (same : n * d' = n' * d) : roundEven n d = roundEven n' d' :=
  calc roundEven n d
      = roundEven (n * d') (d * d') := (roundEven_mul_right n pos' d).symm
    _ = roundEven (n' * d) (d' * d) := by rw [same, Nat.mul_comm d d']
    _ = roundEven n' d' := roundEven_mul_right n' pos d'

/-! ## The logarithm of a quotient -/

section Log

variable {n d : Nat}

/-- The quotient against multiples of a power of two, by natural numbers alone. -/
theorem mul_two_zpow_le_iff (pos : 0 < d) (a b : Nat) (e : Int) :
    (a : ℚ) * 2 ^ e ≤ b * (n / d) ↔ a * d <<< e.toNat ≤ b * n <<< (-e).toNat := by
  have scale : (2 : ℚ) ^ e * 2 ^ (-e).toNat = 2 ^ e.toNat := by
    rw [← zpow_natCast, ← zpow_natCast, ← zpow_add₀ two_ne_zero]
    congr 1
    omega
  rw [← mul_div_assoc, le_div_iff₀ (Nat.cast_pos.mpr pos),
    ← mul_le_mul_iff_left₀ (pow_pos two_pos (-e).toNat), mul_right_comm, mul_assoc (a : ℚ), scale,
    Nat.shiftLeft_eq, Nat.shiftLeft_eq, mul_assoc (a : ℚ), mul_comm _ (d : ℚ), mul_assoc (b : ℚ)]
  norm_cast

theorem two_zpow_le_div_iff (pos : 0 < d) (e : Int) :
    (2 : ℚ) ^ e ≤ (n : ℚ) / d ↔ d <<< e.toNat ≤ n <<< (-e).toNat := by
  simpa using mul_two_zpow_le_iff pos 1 1 e

/-- The quotient lies between the quotients of the powers of two around `n` and `d`. -/
theorem div_bounds (posN : 0 < n) (posD : 0 < d) :
    (2 : ℚ) ^ ((n.log2 : Int) - d.log2 - 1) ≤ (n : ℚ) / d ∧
      (n : ℚ) / d < 2 ^ ((n.log2 : Int) - d.log2 + 1) := by
  have lowN : (2 : ℚ) ^ (n.log2 : Int) ≤ n := by
    rw [zpow_natCast]
    exact_mod_cast Nat.log2_self_le posN.ne'
  have highN : (n : ℚ) < 2 ^ ((n.log2 : Int) + 1) := by
    rw [← Nat.cast_succ, zpow_natCast]
    exact_mod_cast Nat.lt_log2_self
  have lowD : (2 : ℚ) ^ (d.log2 : Int) ≤ d := by
    rw [zpow_natCast]
    exact_mod_cast Nat.log2_self_le posD.ne'
  have highD : (d : ℚ) < 2 ^ ((d.log2 : Int) + 1) := by
    rw [← Nat.cast_succ, zpow_natCast]
    exact_mod_cast Nat.lt_log2_self
  have positive : (0 : ℚ) < d := Nat.cast_pos.mpr posD
  constructor
  · rw [sub_sub, zpow_sub₀ two_ne_zero]
    exact div_le_div₀ (Nat.cast_nonneg n) lowN positive highD.le
  · rw [sub_add_eq_add_sub, zpow_sub₀ two_ne_zero]
    exact div_lt_div₀ highN lowD (zpow_nonneg two_pos.le _) (zpow_pos two_pos _)

theorem floorLog2_eq_log (posN : 0 < n) (posD : 0 < d) :
    floorLog2 n d = Int.log 2 ((n : ℚ) / d) := by
  have positive : (0 : ℚ) < (n : ℚ) / d := div_pos (Nat.cast_pos.mpr posN) (Nat.cast_pos.mpr posD)
  obtain ⟨low, high⟩ := div_bounds posN posD
  have least (e : Int) : (2 : ℚ) ^ e ≤ (n : ℚ) / d ↔ e ≤ Int.log 2 ((n : ℚ) / d) :=
    Int.zpow_le_iff_le_log Nat.one_lt_two positive
  have most (e : Int) : (n : ℚ) / d < 2 ^ e ↔ Int.log 2 ((n : ℚ) / d) < e :=
    Int.lt_zpow_iff_log_lt Nat.one_lt_two positive
  rw [least] at low
  rw [most] at high
  unfold floorLog2
  dsimp only
  split
  · next reached =>
      rw [← two_zpow_le_div_iff posD, least] at reached
      omega
  · next missed =>
      rw [← two_zpow_le_div_iff posD, least] at missed
      omega

end Log

/-! ## Equal quotients -/

/-- Equal quotients have the same nearest double. -/
theorem nearest_congr {n d n' d' : Nat} (pos : 0 < d) (pos' : 0 < d')
    (same : n * d' = n' * d) : nearest n d = nearest n' d' := by
  have zero : n = 0 ↔ n' = 0 := by
    constructor
    · rintro rfl
      rw [Nat.zero_mul] at same
      exact (Nat.mul_eq_zero.mp same.symm).resolve_right pos.ne'
    · rintro rfl
      rw [Nat.zero_mul] at same
      exact (Nat.mul_eq_zero.mp same).resolve_right pos'.ne'
  unfold nearest
  congr 2
  by_cases empty : n = 0
  · rw [nearestWord, nearestWord, if_pos empty, if_pos (zero.mp empty)]
  · have quotients : (n : ℚ) / d = n' / d' := by
      rw [div_eq_div_iff (Nat.cast_ne_zero.mpr pos.ne') (Nat.cast_ne_zero.mpr pos'.ne')]
      exact_mod_cast same
    have log : floorLog2 n d = floorLog2 n' d' := by
      rw [floorLog2_eq_log (Nat.pos_of_ne_zero empty) pos, quotients,
        ← floorLog2_eq_log (Nat.pos_of_ne_zero (mt zero.mpr empty)) pos']
    have rounded (a b : Nat) :
        roundEven (n <<< a) (d <<< b) = roundEven (n' <<< a) (d' <<< b) := by
      simp only [Nat.shiftLeft_eq]
      refine roundEven_congr (Nat.mul_pos pos (Nat.two_pow_pos b))
        (Nat.mul_pos pos' (Nat.two_pow_pos b)) ?_
      rw [Nat.mul_mul_mul_comm, same, Nat.mul_mul_mul_comm]
    rw [nearestWord, nearestWord, if_neg empty, if_neg (mt zero.mpr empty), log]
    dsimp only
    rw [rounded]

end PrintPath.Number
