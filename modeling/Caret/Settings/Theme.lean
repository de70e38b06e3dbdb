import Caret.Document.Reading
import Caret.Text.Quoted
/-!
# `Caret.Settings.Theme` — the colours of hover texts

A colour is six hexadecimal digits. A hash in front is accepted and dropped, and the letters are kept in upper case.
-/

namespace Caret

/-- The colours for the parts of a hover text. -/
structure Theme where
  predefinedType : String := "569CD6"
  type : String := "4EC9B0"
  method : String := "DCDCAA"
  parameter : String := "9CDCFE"
  description : String := "D4D4D4"
  deriving DecidableEq, Repr, Inhabited

namespace Theme

open Reading

/-- The character is a hexadecimal digit. -/
def isHexDigit (c : Char) : Bool :=
  c.isDigit || (decide ('a' ≤ c) && decide (c ≤ 'f')) || (decide ('A' ≤ c) && decide (c ≤ 'F'))

/-- A text without one hash in front. -/
def dropHash : List Char → List Char
  | '#' :: rest => rest
  | cs => cs

/-- What is said of a text that is no colour. -/
def badColourText (s : String) : String := "Invalid colour " ++ Text.quoted s ++ "; expected six hex digits"

/-- A colour. -/
def colour : Data → Reading String
  | .text s =>
    let digits := dropHash s.toList
    if digits.length = 6 ∧ digits.all isHexDigit then .done (String.ofList (digits.map Char.toUpper))
    else fault (.invalid (badColourText s))
  | _ => fault (.invalid "theme colours must be strings")

/-- The keys of a theme. -/
def keys : List String := ["predefined_type", "type", "method", "parameter", "description"]

/-- There are no keys but the known ones. -/
def onlyKeys (known : List String) (fields : List (String × Data)) : Reading Unit :=
  match (fields.filter fun f => !known.contains f.1).map fun f => (⟨[.key f.1], .unknownKey⟩ : Fault) with
  | [] => .done ()
  | faults => .failed faults

/-- A theme; a colour that is left out has its default. -/
def read : Data → Reading Theme :=
  tableOf fun fs =>
    (fun a b c d e _ => Theme.mk a b c d e)
      <$> optional "predefined_type" ({} : Theme).predefinedType colour fs
      <*> optional "type" ({} : Theme).type colour fs
      <*> optional "method" ({} : Theme).method colour fs
      <*> optional "parameter" ({} : Theme).parameter colour fs
      <*> optional "description" ({} : Theme).description colour fs
      <*> onlyKeys keys fs

end Theme
end Caret
