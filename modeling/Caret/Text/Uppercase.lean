/-!
# `Caret.Text.Uppercase` — capital letters, as far as they are ASCII

Enough to compare a text in capitals with an ASCII word: a character that is left alone here is either no letter or
has a capital form that is not ASCII.
-/

namespace Caret.Text

/-- The characters outside ASCII whose capital form is ASCII: the sharp and long s, the dotless i, and the ligatures. -/
def asciiCapitals : List (Nat × String) :=
  [(0xdf, "SS"), (0x131, "I"), (0x17f, "S"), (0xfb00, "FF"), (0xfb01, "FI"), (0xfb02, "FL"), (0xfb03, "FFI"),
   (0xfb04, "FFL"), (0xfb05, "ST"), (0xfb06, "ST")]

/-- The capital form of a character. -/
def capitalForm (c : Char) : List Char :=
  match asciiCapitals.lookup c.toNat with
  | some s => s.toList
  | none => [c.toUpper]

/-- A text in capital letters. -/
def uppercase (s : String) : String := String.ofList (s.toList.flatMap capitalForm)

end Caret.Text
