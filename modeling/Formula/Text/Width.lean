import Formula.Text.Ranges

/-!
The cells of a terminal that letters and decimal digits take: two for East Asian wide and
full-width ones, none for the Korean vowels and finals that join the letter before them, one for
all others.
-/

namespace Formula.Text

/-- The letters and decimal digits of East Asian width W or F. -/
def wideRanges : List (Nat × Nat) := [
  (0x1100, 0x115F), (0x3005, 0x3006), (0x3031, 0x3035), (0x303B, 0x303C), (0x3041, 0x3096),
  (0x309D, 0x309F), (0x30A1, 0x30FA), (0x30FC, 0x30FF), (0x3105, 0x312F), (0x3131, 0x318E),
  (0x31A0, 0x31BF), (0x31F0, 0x31FF), (0x3400, 0x4DBF), (0x4E00, 0xA48C), (0xA960, 0xA97C),
  (0xAC00, 0xD7A3), (0xF900, 0xFA6D), (0xFA70, 0xFAD9), (0xFF10, 0xFF19), (0xFF21, 0xFF3A),
  (0xFF41, 0xFF5A), (0x16FE0, 0x16FE1), (0x16FE3, 0x16FE3), (0x17000, 0x187F7),
  (0x18800, 0x18CD5), (0x18D00, 0x18D08), (0x1AFF0, 0x1AFF3), (0x1AFF5, 0x1AFFB),
  (0x1AFFD, 0x1AFFE), (0x1B000, 0x1B122), (0x1B150, 0x1B152), (0x1B164, 0x1B167),
  (0x1B170, 0x1B2FB), (0x20000, 0x2A6DF), (0x2A700, 0x2B738), (0x2B740, 0x2B81D),
  (0x2B820, 0x2CEA1), (0x2CEB0, 0x2EBE0), (0x2F800, 0x2FA1D), (0x30000, 0x3134A)]

/-- The Korean vowels and finals. -/
def joiningRanges : List (Nat × Nat) := [
  (0x1160, 0x11FF), (0xD7B0, 0xD7C6), (0xD7CB, 0xD7FB)]

def cellWidth (c : Char) : Nat :=
  if inRanges c.toNat wideRanges then 2 else if inRanges c.toNat joiningRanges then 0 else 1

def cells (text : List Char) : Nat := text.foldl (fun count c => count + cellWidth c) 0

end Formula.Text
