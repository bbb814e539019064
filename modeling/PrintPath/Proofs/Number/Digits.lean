import Mathlib.Algebra.Order.Ring.Nat
import PrintPath.Number.Text
import PrintPath.Proofs.Text.Words

/-!
# Reading what was written

A decimal is written as digits, with a point among them or without one. A reader
gives the digits back: the decimal itself, or the same number with the zeros
before the point counted among its digits.
-/

namespace PrintPath.Number

/-! ## Digits -/

theorem toNat_of_isDigit {c : Char} (h : isDigit c = true) : 48 ≤ c.toNat ∧ c.toNat ≤ 57 := by
  simpa [isDigit, Char.le_def, UInt32.le_iff_toNat_le] using h

theorem ofDigits_eq (cs : List Char) : ofDigits cs = Nat.ofDigitChars 10 cs 0 := rfl

def AllDigits (cs : List Char) : Prop :=
  ∀ c ∈ cs, isDigit c = true

theorem allDigits_append {cs ds : List Char} :
    AllDigits (cs ++ ds) ↔ AllDigits cs ∧ AllDigits ds :=
  List.forall_mem_append

theorem allDigits_zeros (k : Nat) : AllDigits (List.replicate k '0') := by
  intro c mem
  rw [List.eq_of_mem_replicate mem]
  rfl

theorem allDigits_toDigits (n : Nat) : AllDigits (toDigits n) :=
  fun _ mem => Nat.isDigit_of_mem_toDigits (by decide) (by decide) mem

theorem ofDigits_toDigits (n : Nat) : ofDigits (toDigits n) = n :=
  Nat.ofDigitChars_ten_toDigits

theorem ofDigits_zeros_append (k : Nat) (cs : List Char) :
    ofDigits (List.replicate k '0' ++ cs) = ofDigits cs := by
  rw [ofDigits_eq, Nat.ofDigitChars_append, Nat.ofDigitChars_replicate_zero, Nat.mul_zero]
  rfl

theorem ofDigits_append_zeros (cs : List Char) (k : Nat) :
    ofDigits (cs ++ List.replicate k '0') = ofDigits cs * 10 ^ k := by
  rw [ofDigits_eq, Nat.ofDigitChars_append, Nat.ofDigitChars_replicate_zero, Nat.mul_comm]
  rfl

/-! ## Reading digits -/

/-- A point with the digits behind it, if there is one. -/
inductive FractionText : List Char → List Char → Prop
  | none : FractionText [] []
  | point {ds : List Char} : AllDigits ds → FractionText ('.' :: ds) ds

theorem splitMantissa_append {whole fraction digits rest : List Char} (all : AllDigits whole)
    (h : FractionText fraction digits) (stop : ∀ c ∈ rest.head?, isDigit c = false ∧ c ≠ '.') :
    splitMantissa (whole ++ (fraction ++ rest)) = (whole, digits, rest) := by
  have stops : ∀ c ∈ rest.head?, isDigit c = false := fun c first => (stop c first).1
  unfold splitMantissa
  cases h with
  | none =>
      rw [List.nil_append, Text.takeWhile_run all stops, Text.dropWhile_run all stops]
      split
      · exact absurd rfl (stop '.' rfl).2
      · rfl
  | point more =>
      have point : ∀ c ∈ ('.' :: digits ++ rest).head?, isDigit c = false := by
        rintro c first
        cases first
        rfl
      rw [Text.takeWhile_run all point, Text.dropWhile_run all point]
      show (whole, (digits ++ rest).takeWhile isDigit, (digits ++ rest).dropWhile isDigit) = _
      rw [Text.takeWhile_run more stops, Text.dropWhile_run more stops]

/-- The texts of a decimal: digits, or digits with a point after the first ones. -/
inductive Writes : List Char → Decimal → Prop where
  | whole {ds : List Char} (nonempty : ds ≠ []) (digits : AllDigits ds) :
      Writes ds ⟨ofDigits ds, 0⟩
  | point {ds fs : List Char} (nonempty : ds ≠ []) (digits : AllDigits ds) (places : AllDigits fs) :
      Writes (ds ++ '.' :: fs) ⟨ofDigits (ds ++ fs), -fs.length⟩

namespace Writes

variable {cs : List Char} {d : Decimal}

theorem readDecimal_eq (h : Writes cs d) : readDecimal cs = some d := by
  unfold readDecimal
  cases h with
  | whole nonempty digits =>
      have split : splitMantissa (cs ++ []) = (cs, [], []) :=
        splitMantissa_append digits .none nofun
      rw [List.append_nil] at split
      rw [split]
      dsimp only
      rw [if_neg (fun none => nonempty none.1), List.append_nil]
      rfl
  | @point ds fs nonempty digits places =>
      have split : splitMantissa (ds ++ ('.' :: fs ++ [])) = (ds, fs, []) :=
        splitMantissa_append digits (.point places) nofun
      rw [List.append_nil] at split
      rw [split]
      dsimp only
      rw [if_neg (fun none => nonempty none.1)]
      exact congrArg (fun e => some (Decimal.mk _ e)) (Int.zero_sub _)

theorem exists_cons (h : Writes cs d) : ∃ c rest, cs = c :: rest ∧ isDigit c = true := by
  cases h with
  | whole nonempty digits =>
      obtain ⟨c, rest, rfl⟩ := List.exists_cons_of_ne_nil nonempty
      exact ⟨c, rest, rfl, digits c List.mem_cons_self⟩
  | point nonempty digits places =>
      obtain ⟨c, rest, rfl⟩ := List.exists_cons_of_ne_nil nonempty
      exact ⟨c, _, rfl, digits c List.mem_cons_self⟩

theorem isDigit_or_point (h : Writes cs d) : ∀ c ∈ cs, isDigit c = true ∨ c = '.' := by
  intro c mem
  cases h with
  | whole nonempty digits => exact Or.inl (digits c mem)
  | point nonempty digits places =>
      rcases List.mem_append.mp mem with before | rest
      · exact Or.inl (digits c before)
      · rcases List.mem_cons.mp rest with rfl | after
        · exact Or.inr rfl
        · exact Or.inl (places c after)

end Writes

/-! ## Writing digits -/

/-- A decimal as it is read back: zeros that fill the gap to the point are digits. -/
def Decimal.filled (d : Decimal) : Decimal :=
  ⟨d.digits * 10 ^ d.exponent.toNat, min d.exponent 0⟩

theorem writes_withPoint (n : Nat) (places : Nat) (pos : 0 < places) :
    Writes (withPoint places n) ⟨n, -places⟩ := by
  unfold withPoint
  dsimp only
  generalize padded : List.replicate (places + 1 - (toDigits n).length) '0' ++ toDigits n = ds
  have digits : AllDigits ds := by
    rw [← padded]
    exact allDigits_append.mpr ⟨allDigits_zeros _, allDigits_toDigits n⟩
  have value : ofDigits ds = n := by
    rw [← padded, ofDigits_zeros_append, ofDigits_toDigits]
  have enough : places < ds.length := by
    rw [← padded, List.length_append, List.length_replicate]
    omega
  have nonempty : ds.take (ds.length - places) ≠ [] := by
    rw [← List.length_pos_iff, List.length_take]
    omega
  have length : ((ds.drop (ds.length - places)).length : Int) = places := by
    rw [List.length_drop]
    omega
  rw [if_neg pos.ne']
  rw [← List.take_append_drop (ds.length - places) ds, allDigits_append] at digits
  have written := Writes.point nonempty digits.1 digits.2
  rwa [List.take_append_drop, value, length] at written

/-- Reading the text of a decimal gives its number. -/
theorem writes_plain (d : Decimal) : Writes d.plain d.filled := by
  unfold Decimal.plain Decimal.filled
  split
  · next whole =>
      have nonempty : toDigits d.digits ++ List.replicate d.exponent.toNat '0' ≠ [] :=
        List.append_ne_nil_of_left_ne_nil Nat.toDigits_ne_nil _
      have written := Writes.whole nonempty
        (allDigits_append.mpr ⟨allDigits_toDigits d.digits, allDigits_zeros d.exponent.toNat⟩)
      rw [ofDigits_append_zeros, ofDigits_toDigits] at written
      rwa [min_eq_right whole]
  · next fraction =>
      have written := writes_withPoint d.digits (-d.exponent).toNat (by omega)
      have zero : d.exponent.toNat = 0 := by omega
      have exponent : min d.exponent 0 = -((-d.exponent).toNat : Int) := by omega
      rwa [zero, Nat.pow_zero, Nat.mul_one, exponent]

end PrintPath.Number
