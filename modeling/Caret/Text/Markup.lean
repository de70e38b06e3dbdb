/-!
# `Caret.Text.Markup` — texts inside markup

A text is put into markup by writing each markup character, and each character outside ASCII, as a numeric
character reference. What comes out is plain ASCII without quotes or angle brackets.
-/

namespace Caret.Text

/-- The character has to be written as a reference: it is outside ASCII or has a meaning in markup. -/
def needsReference (c : Char) : Bool :=
  decide (127 < c.toNat) || c == '\x22' || c == '\x27' || c == '<' || c == '>' || c == '&'

/-- The numeric reference to a character: its code point in decimal between an ampersand with a hash and a semicolon. -/
def reference (c : Char) : List Char := '&' :: '#' :: (Nat.toDigits 10 c.toNat ++ [';'])

/-- One character as it stands in markup. -/
def escapeChar (c : Char) : List Char := if needsReference c then reference c else [c]

/-- A text as it stands in markup. -/
def escape (s : String) : String := String.ofList (s.toList.flatMap escapeChar)

end Caret.Text
