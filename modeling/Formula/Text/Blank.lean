import Formula.Text.Ranges

/-!
White space. The Unicode property White_Space and, beyond it, the four information separators,
which are blank too. Texts are trimmed at both ends.
-/

namespace Formula.Text

/-- The code points of the property White_Space. -/
def whiteSpaceRanges : List (Nat × Nat) := [
  (0x9, 0xD), (0x20, 0x20), (0x85, 0x85), (0xA0, 0xA0), (0x1680, 0x1680), (0x2000, 0x200A),
  (0x2028, 0x2029), (0x202F, 0x202F), (0x205F, 0x205F), (0x3000, 0x3000)]

def isWhiteSpace (c : Char) : Bool := inRanges c.toNat whiteSpaceRanges

/-- White space or one of the separators U+001C to U+001F. -/
def isBlank (c : Char) : Bool := isWhiteSpace c || inRanges c.toNat [(0x1C, 0x1F)]

theorem isBlank_of_isWhiteSpace {c : Char} (h : isWhiteSpace c = true) : isBlank c = true := by
  simp [isBlank, h]

/-- The text without the characters of a class at its two ends. -/
def trim (drop : Char → Bool) (text : List Char) : List Char :=
  (text.dropWhile drop).reverse.dropWhile drop |>.reverse

end Formula.Text
