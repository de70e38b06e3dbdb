import Caret.Text.Blank
import Caret.Text.Digit
/-!
# `Caret.Text.Integer` — integers written as text

An integer text may have white space around it, one sign, and single underscores between its digits. The digits may
be limited to ASCII or come from any script, which is a parameter here. Integers are written in decimal. Both ways
the number of digits is limited.

## Contents
- **Reading.** `integer?`, `wholeNumber?`.
- **Writing.** `decimal?`, `decimals?`, and `digitLimitText` for an integer beyond the limit.
-/

namespace Caret.Text

/-- The value of an ASCII digit. -/
def asciiDigit? (c : Char) : Option Nat :=
  if 0x30 ≤ c.toNat ∧ c.toNat ≤ 0x39 then some (c.toNat - 0x30) else none

/-- The digits after the first one: each may have one underscore before it. -/
def moreDigits (value? : Char → Option Nat) : List Char → Option (List Nat)
  | [] => some []
  | c :: rest =>
    match value? c with
    | some d => (moreDigits value? rest).map (d :: ·)
    | none =>
      if c = '_' then
        match rest with
        | [] => none
        | c' :: rest' =>
          match value? c' with
          | some d => (moreDigits value? rest').map (d :: ·)
          | none => none
      else none

/-- A run of digits with single underscores between them; an empty text is none. -/
def digits? (value? : Char → Option Nat) : List Char → Option (List Nat)
  | [] => none
  | c :: rest =>
    match value? c with
    | some d => (moreDigits value? rest).map (d :: ·)
    | none => none

/-- The number that a run of decimal digits denotes, the first being the highest. -/
def ofDigits (ds : List Nat) : Nat := ds.foldl (fun n d => 10 * n + d) 0

/-- A text split into its sign (`true` for a minus) and what follows it. -/
def splitSign : List Char → Bool × List Char
  | [] => (false, [])
  | c :: rest => if c = '-' then (true, rest) else if c = '+' then (false, rest) else (false, c :: rest)

/-- A natural number with a sign. -/
def signed (negative : Bool) (n : Nat) : Int := if negative then -(n : Int) else (n : Int)

/-- The most decimal digits of an integer that is read from a text or written as one. -/
def maxDigits : Nat := 4300

/-- Reads an integer with the digits of any script, at most `maxDigits` of them. -/
def integer? (s : String) : Option Int :=
  let (negative, cs) := splitSign (trim s.toList)
  match digits? digitValue? cs with
  | some ds => if ds.length ≤ maxDigits then some (signed negative (ofDigits ds)) else none
  | none => none

/-- A text without an ending of a point and zeros, at least one of them. -/
def dropZeroFraction (cs : List Char) : List Char :=
  match cs.dropWhile (· ≠ '.') with
  | '.' :: '0' :: zeros => if zeros.all (· == '0') then cs.takeWhile (· ≠ '.') else cs
  | _ => cs

/-- The integer, of any length, that ASCII digits spell; they may be followed by a point and zeros. -/
def wholeNumber? (s : String) : Option Int :=
  let (negative, cs) := splitSign (trim s.toList)
  (digits? asciiDigit? (dropZeroFraction cs)).map fun ds => signed negative (ofDigits ds)

/-- The number of decimal digits of an integer, the sign left aside. -/
def digitCount (n : Int) : Nat := (Nat.toDigits 10 n.natAbs).length

/-- An integer in decimal, if it has at most `maxDigits` digits. -/
def decimal? (n : Int) : Option String := if digitCount n ≤ maxDigits then some (toString n) else none

/-- Integers in decimal with commas between them, if each one can be written. -/
def decimals? (ns : List Int) : Option String := (ns.mapM decimal?).map (String.intercalate ", ")

/-- What is said of an integer with too many digits. Of one that was read, the number of its digits is told. -/
def digitLimitText (digits : Option Nat) : String :=
  "Exceeds the limit (" ++ toString maxDigits ++ " digits) for integer string conversion"
    ++ (digits.map fun n => ": value has " ++ toString n ++ " digits").getD ""
    ++ "; use sys.set_int_max_str_digits() to increase the limit"

end Caret.Text
