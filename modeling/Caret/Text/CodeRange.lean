/-!
# `Caret.Text.CodeRange` — sets of characters as lists of code-point ranges

The character properties of this library are finite unions of ranges; a property is a list of first and last code
points.
-/

namespace Caret.Text

/-- A set of code points: the union of ranges, each given by its first and its last member. -/
abbrev CodeRanges := List (Nat × Nat)

/-- The character belongs to one of the ranges. -/
def CodeRanges.has (rs : CodeRanges) (c : Char) : Bool :=
  rs.any fun r => decide (r.1 ≤ c.toNat) && decide (c.toNat ≤ r.2)

end Caret.Text
