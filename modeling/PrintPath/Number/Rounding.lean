/-!
# Rounding a quotient of natural numbers

Both roundings send a quotient to a nearest whole number. They differ only
on a tie, where one takes the even neighbour and the other the larger one.
-/

namespace PrintPath.Number

/-- The whole number nearest to `n / d`; of two equally near ones the even
one. -/
def roundEven (n d : Nat) : Nat :=
  let q := n / d
  let r := n % d
  if 2 * r < d then q else if d < 2 * r then q + 1 else q + q % 2

/-- The whole number nearest to `n / d`; of two equally near ones the larger
one. -/
def roundUp (n d : Nat) : Nat :=
  (2 * n + d) / (2 * d)

/-- A whole number is its own rounding. -/
theorem roundEven_mul (n : Nat) {d : Nat} (h : 0 < d) : roundEven (n * d) d = n := by
  simp [roundEven, Nat.mul_div_cancel n h, h]

end PrintPath.Number
