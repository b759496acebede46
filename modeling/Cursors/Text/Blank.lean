/-
  Cursors.Text.Blank
  ──────────────────
  **BLANK CHARACTERS.**

  The characters that may surround a text without belonging to it: the
  control characters that move to another column, line or record, the
  space, and the spaces and separators of the other scripts.  `strip`
  takes them off both ends of a text and leaves those inside alone.
-/
namespace Cursors.Text

/-! ## §1. The class. -/

/-- The blank characters, as inclusive ranges of code points in ascending order. -/
def blankRanges : List (Nat × Nat) :=
  [
    (0x9, 0xd), (0x1c, 0x20), (0x85, 0x85), (0xa0, 0xa0),
    (0x1680, 0x1680), (0x2000, 0x200a), (0x2028, 0x2029), (0x202f, 0x202f),
    (0x205f, 0x205f), (0x3000, 0x3000)]

/-- A character that separates texts. -/
def isBlank (c : Char) : Bool :=
  blankRanges.any fun (low, high) => low ≤ c.toNat && c.toNat ≤ high

/-! ## §2. Stripping. -/

/-- A text without the blanks at its two ends. -/
def strip (text : List Char) : List Char :=
  ((text.dropWhile isBlank).reverse.dropWhile isBlank).reverse

end Cursors.Text
