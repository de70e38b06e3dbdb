import Caret.Data
import Caret.Text.Integer
import Caret.Text.Pieces
/-!
# `Caret.Json.Reader` — reading JSON documents

A strict reader: no comments, no trailing commas, no byte order mark, no unpaired surrogates, no control characters in
strings, nothing after the value. A key that is repeated keeps its last value. What a numeral denotes is a parameter of
`Json.parse?`; `documentNumber?` is the rule for files.
-/

namespace Caret.Json

/-- A number as it is written: `digits * 10 ^ exponent`, and whether it is written without point and exponent. -/
structure Numeral where
  negative : Bool
  digits : Nat
  exponent : Int
  whole : Bool

/-- The white space of JSON. -/
def isSpace (c : Char) : Bool := c == ' ' || c == '\t' || c == '\n' || c == '\r'

/-- A text without the white space in front. -/
def skipSpace (cs : List Char) : List Char := cs.dropWhile isSpace

/-! ## Strings -/

/-- The number that hexadecimal digits denote. -/
def hexNumber? (cs : List Char) : Option Nat :=
  cs.foldl (fun n c => n.bind fun n => (Text.hexValue? c).map (16 * n + ·)) (some 0)

/-- The character that a one-letter escape stands for. -/
def escaped? (c : Char) : Option Char :=
  if c = '\x22' ∨ c = '\x5c' ∨ c = '/' then some c
  else if c = 'b' then some '\x08'
  else if c = 'f' then some '\x0c'
  else if c = 'n' then some '\n'
  else if c = 'r' then some '\r'
  else if c = 't' then some '\t'
  else none

/-- Reads a string up to its closing quote. `acc` holds what was read, last character first. -/
def stringRest? (acc : List Char) : List Char → Option (String × List Char)
  | [] => none
  | c :: rest =>
    if c = '\x22' then some (String.ofList acc.reverse, rest)
    else if c = '\x5c' then
      match rest with
      | 'u' :: h1 :: h2 :: h3 :: h4 :: rest =>
        match hexNumber? [h1, h2, h3, h4] with
        | none => none
        | some n =>
          if 0xd800 ≤ n ∧ n < 0xdc00 then
            match rest with
            | '\x5c' :: 'u' :: l1 :: l2 :: l3 :: l4 :: rest =>
              match hexNumber? [l1, l2, l3, l4] with
              | none => none
              | some m =>
                if 0xdc00 ≤ m ∧ m < 0xe000 then
                  stringRest? (Char.ofNat (0x10000 + (n - 0xd800) * 0x400 + (m - 0xdc00)) :: acc) rest
                else none
            | _ => none
          else if 0xdc00 ≤ n ∧ n < 0xe000 then none
          else stringRest? (Char.ofNat n :: acc) rest
      | e :: rest =>
        match escaped? e with
        | some c => stringRest? (c :: acc) rest
        | none => none
      | [] => none
    else if c.toNat < 0x20 then none
    else stringRest? (c :: acc) rest

/-! ## Numbers -/

/-- Splits the ASCII digits off the front of a text. -/
def spanDigits (cs : List Char) : List Nat × List Char :=
  ((cs.takeWhile Char.isDigit).map fun c => c.toNat - 0x30, cs.dropWhile Char.isDigit)

/-- Reads the fraction of a number: its digits, none when there is no point. -/
def fraction? : List Char → Option (List Nat × List Char)
  | '.' :: rest =>
    match spanDigits rest with
    | ([], _) => none
    | (ds, rest) => some (ds, rest)
  | cs => some ([], cs)

/-- Reads the exponent of a number; none is written when there is no mark. -/
def exponent? : List Char → Option (Option Int × List Char)
  | [] => some (none, [])
  | c :: rest =>
    if c = 'e' ∨ c = 'E' then
      let (negative, rest) := Text.splitSign rest
      match spanDigits rest with
      | ([], _) => none
      | (ds, rest) => some (some (Text.signed negative (Text.ofDigits ds)), rest)
    else some (none, c :: rest)

/-- Reads a number. Its whole part is a zero or does not start with one. -/
def numeral? (cs : List Char) : Option (Numeral × List Char) :=
  let (negative, cs) := match cs with
    | '-' :: rest => (true, rest)
    | cs => (false, cs)
  match spanDigits cs with
  | ([], _) => none
  | (ds, cs) =>
    if ds.head? = some 0 ∧ 1 < ds.length then none
    else
      match fraction? cs with
      | none => none
      | some (fs, cs) =>
        match exponent? cs with
        | none => none
        | some (e, cs) =>
          some (⟨negative, Text.ofDigits (ds ++ fs), e.getD 0 - fs.length, fs.isEmpty && e.isNone⟩, cs)

/-! ## Values -/

section Values

variable (number? : Numeral → Option Data)

mutual

/-- Reads a value. `depth` bounds the nesting, `fuel` the number of steps. -/
def value? : (fuel depth : Nat) → List Char → Option (Data × List Char)
  | 0, _, _ => none
  | fuel + 1, depth, cs =>
    match skipSpace cs with
    | [] => none
    | c :: rest =>
      if c = '\x22' then (stringRest? [] rest).map fun (s, rest) => (.text s, rest)
      else if c = '[' then
        match depth with
        | 0 => none
        | depth + 1 =>
          match skipSpace rest with
          | ']' :: rest => some (.list [], rest)
          | rest => (items? fuel depth [] rest).map fun (xs, rest) => (.list xs, rest)
      else if c = '\x7b' then
        match depth with
        | 0 => none
        | depth + 1 =>
          match skipSpace rest with
          | '\x7d' :: rest => some (.table [], rest)
          | rest => (fields? fuel depth [] rest).map fun (fs, rest) => (.table fs, rest)
      else if c = 't' then (Text.afterWord? "rue" rest).map ((.bool true, ·))
      else if c = 'f' then (Text.afterWord? "alse" rest).map ((.bool false, ·))
      else if c = 'n' then (Text.afterWord? "ull" rest).map ((.null, ·))
      else (numeral? (c :: rest)).bind fun (n, rest) => (number? n).map ((·, rest))

/-- Reads the items of an array up to its closing bracket, of which there is at least one more. -/
def items? : (fuel depth : Nat) → List Data → List Char → Option (List Data × List Char)
  | 0, _, _, _ => none
  | fuel + 1, depth, acc, cs =>
    match value? fuel depth cs with
    | none => none
    | some (v, rest) =>
      match skipSpace rest with
      | ',' :: rest => items? fuel depth (v :: acc) rest
      | ']' :: rest => some ((v :: acc).reverse, rest)
      | _ => none

/-- Reads the fields of an object up to its closing brace, of which there is at least one more. -/
def fields? : (fuel depth : Nat) → List (String × Data) → List Char → Option (List (String × Data) × List Char)
  | 0, _, _, _ => none
  | fuel + 1, depth, acc, cs =>
    match skipSpace cs with
    | '\x22' :: rest =>
      match stringRest? [] rest with
      | none => none
      | some (key, rest) =>
        match skipSpace rest with
        | ':' :: rest =>
          match value? fuel depth rest with
          | none => none
          | some (v, rest) =>
            match skipSpace rest with
            | ',' :: rest => fields? fuel depth (Data.set acc key v) rest
            | '\x7d' :: rest => some (Data.set acc key v, rest)
            | _ => none
        | _ => none
    | _ => none

end

/-- The deepest nesting of a document. -/
def maxDepth : Nat := 1024

/-- Reads a text that holds one value. -/
def parse? (text : String) : Option Data :=
  let cs := text.toList
  match value? number? (2 * cs.length + 2) maxDepth cs with
  | some (v, rest) => if (skipSpace rest).isEmpty then some v else none
  | none => none

end Values

/-! ## Files -/

/-- The least integer that a file can hold exactly. -/
def minInteger : Int := -(Nat.pow 2 63 : Nat)

/-- The greatest integer that a file can hold exactly. -/
def maxInteger : Int := (Nat.pow 2 64 : Nat) - 1

/-- What a numeral in a file denotes. An integer beyond 64 bits is read as a floating-point number, and a number too
large for that is refused. -/
def documentNumber? (n : Numeral) : Option Data :=
  let i := Text.signed n.negative n.digits
  if n.whole ∧ minInteger ≤ i ∧ i ≤ maxInteger then some (.int i)
  else
    let x := Binary64.ofDecimal n.negative n.digits n.exponent
    if x.isFinite then some (.real x) else none

/-- Reads the content of a file as a JSON document. -/
def document? (content : ByteArray) : Option Data :=
  match String.fromUTF8? content with
  | some text => parse? documentNumber? text
  | none => none

end Caret.Json
