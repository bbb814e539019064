import PrintPath.Text.Alphabetic
import PrintPath.Text.Numeric

/-!
# Alphanumeric characters

A character is alphanumeric if it is alphabetic or numeric in Unicode.
-/

namespace PrintPath.Text

def isAlphanumeric (c : Char) : Bool :=
  isAlphabetic c || isNumeric c

example :
    isAlphanumeric 'é' = true ∧ isAlphanumeric '²' = true ∧ isAlphanumeric '_' = false := by
  decide +kernel

end PrintPath.Text
