import Caret.Text.CodeRange
/-!
# `Caret.Text.Blank` — white space around a number

The characters with the Unicode property White_Space, and trimming by it.
-/

namespace Caret.Text

/-- The white space of Unicode: the blanks of ASCII, the next-line and no-break characters, and the typographic
spaces. -/
def blanks : CodeRanges :=
  [(0x9, 0xd), (0x20, 0x20), (0x85, 0x85), (0xa0, 0xa0), (0x1680, 0x1680), (0x2000, 0x200a), (0x2028, 0x2029),
   (0x202f, 0x202f), (0x205f, 0x205f), (0x3000, 0x3000)]

/-- The character is white space. -/
def isBlank (c : Char) : Bool := blanks.has c

/-- A text without the white space at its two ends. -/
def trim (cs : List Char) : List Char := ((cs.dropWhile isBlank).reverse.dropWhile isBlank).reverse

end Caret.Text
