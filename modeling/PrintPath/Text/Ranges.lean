/-!
# Sets of characters

A set of characters is a list of ranges, each with its first and its last code
point. In a table of a character property the ranges ascend and lie apart, so
that each has its place and the size of the set is the sum of theirs. The
tables of this library are those of Unicode 17.0.
-/

namespace PrintPath.Text

/-- Ranges of code points, the first and the last of each. -/
abbrev Ranges := List (Nat × Nat)

namespace Ranges

def contains (ranges : Ranges) (c : Char) : Bool :=
  ranges.any fun (low, high) => low ≤ c.toNat && c.toNat ≤ high

/-- Whether no range is empty and each starts at least one character after the
end of the one before. -/
def areApart : Ranges → Bool
  | [] => true
  | [(low, high)] => low ≤ high
  | (low, high) :: (low', high') :: rest =>
    low ≤ high && high + 1 < low' && areApart ((low', high') :: rest)

/-- How many code points the ranges hold. -/
def count (ranges : Ranges) : Nat :=
  ranges.foldl (fun n (low, high) => n + (high + 1 - low)) 0

theorem contains_iff {ranges : Ranges} {c : Char} :
    ranges.contains c = true ↔ ∃ r ∈ ranges, r.1 ≤ c.toNat ∧ c.toNat ≤ r.2 := by
  simp [contains, List.any_eq_true]

end Ranges

end PrintPath.Text
