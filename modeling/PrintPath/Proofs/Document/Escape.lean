import Mathlib.Data.List.Basic
import PrintPath.Document.Scan

/-!
# Escapes in a string

Both formats write a character of a string in one of three ways: behind a backslash by a
letter, behind a backslash by its code point, or as it is. A reader that knows these
three ways reads every character back, whichever of them a writer takes.
-/

namespace PrintPath

namespace Scanner

/-! ## Code points -/

theorem ofHex?_pair {a b : Char} {x y : Nat} (high : hexDigit? a = some x)
    (low : hexDigit? b = some y) : ofHex? ['0', '0', a, b] = some (16 * x + y) := by
  have zero : hexDigit? '0' = some 0 := by decide
  simp [ofHex?, zero, high, low]

/-- Digits for the code of a character below 256. -/
theorem ofHex?_toNat {hex : Nat → Char} {c : Char}
    (digits : ∀ n < 16, hexDigit? (hex n) = some n) (periodic : ∀ n, hex n = hex (n % 16))
    (small : c.toNat < 256) :
    ofHex? ['0', '0', hex (c.toNat / 16), hex c.toNat] = some c.toNat := by
  rw [periodic c.toNat, ofHex?_pair (digits _ (by omega)) (digits _ (Nat.mod_lt _ (by decide))),
    Nat.div_add_mod]

theorem codePoint?_of_ofHex? {digits : List Char} {c : Char}
    (h : ofHex? digits = some c.toNat) : codePoint? digits = some c := by
  have valid : c.toNat < 0xd800 ∨ (0xdfff < c.toNat ∧ c.toNat < 0x110000) := c.valid
  unfold codePoint?
  rw [h]
  exact (if_pos valid).trans (congrArg some (Char.ofNat_toNat c))

end Scanner

namespace Document

/-- The text of a character in a string. The letters that stand for characters and the
characters that may stand for themselves are those of a format. -/
inductive Escapes (letter? : Char → Option Char) (plain : Char → Bool) (c : Char) :
    List Char → Prop
  | letter {l : Char} : letter? l = some c → Escapes letter? plain c ['\\', l]
  | code {a b : Char} : Scanner.ofHex? ['0', '0', a, b] = some c.toNat →
      Escapes letter? plain c ['\\', 'u', '0', '0', a, b]
  | itself : c ≠ '"' → c ≠ '\\' → plain c = true → Escapes letter? plain c [c]

end Document

end PrintPath
