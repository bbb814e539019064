import PrintPath.Text.Pieces
import PrintPath.Text.Ranges

/-!
# Blank characters

The characters of the Unicode property `White_Space`, and what they separate.
-/

namespace PrintPath.Text

/-- The ranges of `White_Space`. -/
def blankRanges : Ranges :=
  [(0x9, 0xd), (0x20, 0x20), (0x85, 0x85), (0xa0, 0xa0), (0x1680, 0x1680),
   (0x2000, 0x200a), (0x2028, 0x2029), (0x202f, 0x202f), (0x205f, 0x205f),
   (0x3000, 0x3000)]

example : blankRanges.areApart = true := by
  decide

example : blankRanges.count = 25 := by
  decide

def isBlank (c : Char) : Bool :=
  blankRanges.contains c

/-- The words of a text: its longest stretches without a blank. -/
def words (cs : List Char) : List (List Char) :=
  (pieces isBlank cs).filter (!·.isEmpty)

/-- A text without the blanks at its two ends. -/
def trim (cs : List Char) : List Char :=
  ((cs.dropWhile isBlank).reverse.dropWhile isBlank).reverse

end PrintPath.Text
