import Caret.Data
import Caret.Text.Integer
import Caret.Text.Pieces
/-!
# `Caret.Toml.Scalar` — strings, numbers and dates of TOML

Each reader takes the text at a value and gives the value with what follows it. Line ends are single line feeds here.

## Contents
- **Strings.** `string`: basic and literal, on one line or on several.
- **Dates and times.** `moment?`.
- **Numbers.** `number?`: decimal integers and floating-point numbers, and integers in base two, eight and sixteen.
-/

namespace Caret.Toml

/-- Why a text is no TOML document. -/
inductive Fault where
  | malformed
  /-- A decimal integer with more digits than can be read. -/
  | oversized (digits : Nat)
  deriving DecidableEq, Repr

/-- A value with the text that follows it. -/
abbrev Scanned (α : Type) := α × List Char

/-- White space within a line. -/
def isSpace (c : Char) : Bool := c == ' ' || c == '\t'

/-- White space within a line, or the end of a line. -/
def isSpaceOrEnd (c : Char) : Bool := isSpace c || c == '\n'

/-- A text without white space in front. -/
def skipSpace (cs : List Char) : List Char := cs.dropWhile isSpace

/-- A control character other than a tab; such a character stands in no comment and no one-line string. -/
def isControl (c : Char) : Bool := (decide (c.toNat < 0x20) || c.toNat == 0x7f) && c != '\t'

/-! ## Strings -/

/-- Reads a character given by a number of hexadecimal digits. -/
def codePoint (width : Nat) (cs : List Char) : Except Fault (Scanned (List Char)) :=
  match (cs.take width).mapM Text.hexValue? with
  | none => .error .malformed
  | some ds =>
    let n := ds.foldl (fun n d => 16 * n + d) 0
    if ds.length = width ∧ n.isValidChar then .ok ([Char.ofNat n], cs.drop width) else .error .malformed

/-- The character that a one-letter escape stands for. -/
def escaped? (c : Char) : Option Char :=
  if c = 'b' then some '\x08'
  else if c = 't' then some '\t'
  else if c = 'n' then some '\n'
  else if c = 'f' then some '\x0c'
  else if c = 'r' then some '\r'
  else if c = '\x22' ∨ c = '\x5c' then some c
  else none

/-- Reads what follows a backslash. In a string of several lines a backslash at the end of a line takes that end and all
white space after it away. -/
def escape (multiline : Bool) : List Char → Except Fault (Scanned (List Char))
  | [] => .error .malformed
  | c :: rest =>
    if multiline && isSpaceOrEnd c then
      match skipSpace (c :: rest) with
      | [] => .ok ([], [])
      | '\n' :: rest => .ok ([], rest.dropWhile isSpaceOrEnd)
      | _ => .error .malformed
    else if c = 'u' then codePoint 4 rest
    else if c = 'U' then codePoint 8 rest
    else
      match escaped? c with
      | some c => .ok ([c], rest)
      | none => .error .malformed

/-- Reads a basic string up to its closing quotes. `acc` holds what was read, last character first. -/
def basicRest (multiline : Bool) : (fuel : Nat) → (acc : List Char) → List Char → Except Fault (Scanned String)
  | 0, _, _ => .error .malformed
  | _, _, [] => .error .malformed
  | fuel + 1, acc, c :: rest =>
    if c = '\x22' then
      if multiline then
        match rest with
        | '\x22' :: '\x22' :: rest => .ok (String.ofList acc.reverse, rest)
        | rest => basicRest multiline fuel (c :: acc) rest
      else .ok (String.ofList acc.reverse, rest)
    else if c = '\x5c' then
      match escape multiline rest with
      | .error e => .error e
      | .ok (out, rest) => basicRest multiline fuel (out ++ acc) rest
    else if isControl c && !(multiline && c == '\n') then .error .malformed
    else basicRest multiline fuel (c :: acc) rest

/-- Reads a literal string on one line up to its closing quote. -/
def literalRest (acc : List Char) : List Char → Except Fault (Scanned String)
  | [] => .error .malformed
  | c :: rest =>
    if c = '\x27' then .ok (String.ofList acc.reverse, rest)
    else if isControl c then .error .malformed
    else literalRest (c :: acc) rest

/-- Reads a literal string of several lines up to its three closing quotes. -/
def literalLines (acc : List Char) : List Char → Except Fault (Scanned String)
  | [] => .error .malformed
  | c :: rest =>
    if c = '\x27' then
      match rest with
      | '\x27' :: '\x27' :: rest => .ok (String.ofList acc.reverse, rest)
      | rest => literalLines (c :: acc) rest
    else if isControl c && c != '\n' then .error .malformed
    else literalLines (c :: acc) rest

/-- A string of several lines may end in one or two quotes of its own, in front of the closing ones. -/
def withOwnQuotes (quote : Char) (s : String) (cs : List Char) : String × List Char :=
  let own := (cs.take 2).takeWhile (· == quote)
  (s ++ String.ofList own, cs.drop own.length)

/-- A text without a line end in front. -/
def dropLineEnd : List Char → List Char
  | '\n' :: rest => rest
  | cs => cs

/-- Reads a string of several lines after its opening quotes. -/
def lines (quote : Char) (cs : List Char) : Except Fault (Scanned String) :=
  let cs := dropLineEnd cs
  let result := if quote = '\x27' then literalLines [] cs else basicRest true (cs.length + 1) [] cs
  result.map fun (s, rest) => withOwnQuotes quote s rest

/-- Reads a string on one line after its opening quote. -/
def oneLine (quote : Char) (cs : List Char) : Except Fault (Scanned String) :=
  if quote = '\x27' then literalRest [] cs else basicRest false (cs.length + 1) [] cs

/-- Reads a string after the first of its opening quotes. -/
def string (quote : Char) (cs : List Char) : Except Fault (Scanned String) :=
  match cs with
  | c :: d :: rest => if c = quote ∧ d = quote then lines quote rest else oneLine quote cs
  | cs => oneLine quote cs

/-! ## Dates and times -/

/-- Reads a number of exactly `width` ASCII digits within bounds. -/
def fixedDigits? (width low high : Nat) (cs : List Char) : Option (Nat × List Char) :=
  match (cs.take width).mapM Text.asciiDigit? with
  | none => none
  | some ds =>
    let n := Text.ofDigits ds
    if ds.length = width ∧ low ≤ n ∧ n ≤ high then some (n, cs.drop width) else none

/-- What follows a given character. -/
def after? (c : Char) : List Char → Option (List Char)
  | [] => none
  | d :: rest => if d = c then some rest else none

/-- The number of days of a month. -/
def daysInMonth (year month : Nat) : Nat :=
  if month = 2 then (if year % 4 = 0 ∧ (year % 100 ≠ 0 ∨ year % 400 = 0) then 29 else 28)
  else if month = 4 ∨ month = 6 ∨ month = 9 ∨ month = 11 then 30
  else 31

/-- Reads a date: year, month, day. -/
def date? (cs : List Char) : Option ((Nat × Nat × Nat) × List Char) := do
  let (year, cs) ← fixedDigits? 4 0 9999 cs
  let (month, cs) ← after? '-' cs >>= fixedDigits? 2 1 12
  let (day, cs) ← after? '-' cs >>= fixedDigits? 2 1 31
  return ((year, month, day), cs)

/-- What follows a fraction of a second, which may be absent. -/
def afterFraction : List Char → List Char
  | '.' :: c :: rest => if c.isDigit then rest.dropWhile Char.isDigit else '.' :: c :: rest
  | cs => cs

/-- What follows a time of day. -/
def afterTime? (cs : List Char) : Option (List Char) := do
  let (_, cs) ← fixedDigits? 2 0 23 cs
  let (_, cs) ← after? ':' cs >>= fixedDigits? 2 0 59
  let (_, cs) ← after? ':' cs >>= fixedDigits? 2 0 59
  return afterFraction cs

/-- What follows an offset in hours and minutes. -/
def afterHours? (cs : List Char) : Option (List Char) := do
  let (_, cs) ← fixedDigits? 2 0 23 cs
  let (_, cs) ← after? ':' cs >>= fixedDigits? 2 0 59
  return cs

/-- What follows a time offset, which may be absent. -/
def afterOffset : List Char → List Char
  | [] => []
  | c :: rest =>
    if c = 'Z' ∨ c = 'z' then rest
    else if c = '+' ∨ c = '-' then (afterHours? rest).getD (c :: rest)
    else c :: rest

/-- What follows the time that may come after a date. -/
def afterDate : List Char → List Char
  | [] => []
  | c :: rest =>
    if c = 'T' ∨ c = 't' ∨ c = ' ' then
      match afterTime? rest with
      | some rest => afterOffset rest
      | none => c :: rest
    else c :: rest

/-- The text between two places, the second of which is further on. -/
def written (cs rest : List Char) : String := String.ofList (cs.take (cs.length - rest.length))

/-- Reads a date, a date with a time, or a time, if there is one. The date has to exist. -/
def moment? (cs : List Char) : Option (Except Fault (Scanned Data)) :=
  match date? cs with
  | some ((year, month, day), rest) =>
    if 1 ≤ year ∧ day ≤ daysInMonth year month then
      let rest := afterDate rest
      some (.ok (.moment (written cs rest), rest))
    else some (.error .malformed)
  | none =>
    match afterTime? cs with
    | some rest => some (.ok (.moment (written cs rest), rest))
    | none => none

/-! ## Numbers -/

/-- Splits off digits with single underscores between them. The underscores are dropped. -/
def spanDigits (isDigit : Char → Bool) : List Char → List Char × List Char
  | [] => ([], [])
  | c :: rest =>
    if isDigit c then
      let (ds, rest) := spanDigits isDigit rest
      (c :: ds, rest)
    else if c = '_' ∧ (rest.head?.map isDigit).getD false then spanDigits isDigit rest
    else ([], c :: rest)

/-- Splits off digits, of which there has to be one in front. -/
def digits? (isDigit : Char → Bool) (cs : List Char) : Option (List Char × List Char) :=
  if (cs.head?.map isDigit).getD false then some (spanDigits isDigit cs) else none

/-- The number that digits denote in a base. -/
def ofDigits (base : Nat) (ds : List Char) : Nat := ds.foldl (fun n c => base * n + (Text.hexValue? c).getD 0) 0

/-- The base that a letter after a zero stands for, with its digits. -/
def base? (c : Char) : Option (Nat × (Char → Bool)) :=
  if c = 'x' then some (16, fun d => (Text.hexValue? d).isSome)
  else if c = 'b' then some (2, fun d => d == '0' || d == '1')
  else if c = 'o' then some (8, fun d => decide ('0' ≤ d) && decide (d ≤ '7'))
  else none

/-- Reads an integer in another base than ten. -/
def otherBase? : List Char → Option (Data × List Char)
  | '0' :: c :: rest => do
    let (base, isDigit) ← base? c
    let (ds, rest) ← digits? isDigit rest
    return (.int (ofDigits base ds), rest)
  | _ => none

/-- Reads the whole part of a decimal number: a zero, or digits that do not start with one. -/
def wholePart? : List Char → Option (List Char × List Char)
  | '0' :: rest => some (['0'], rest)
  | cs => digits? Char.isDigit cs

/-- Reads a fraction; there is none without a point and a digit. -/
def fraction (cs : List Char) : Option (List Char) × List Char :=
  match cs with
  | '.' :: rest =>
    match digits? Char.isDigit rest with
    | some (ds, rest) => (some ds, rest)
    | none => (none, cs)
  | _ => (none, cs)

/-- Reads an exponent; there is none without its mark and a digit. -/
def exponent (cs : List Char) : Option Int × List Char :=
  match cs with
  | [] => (none, cs)
  | c :: rest =>
    if c = 'e' ∨ c = 'E' then
      let (negative, rest) := Text.splitSign rest
      match digits? Char.isDigit rest with
      | some (ds, rest) => (some (Text.signed negative (ofDigits 10 ds)), rest)
      | none => (none, cs)
    else (none, cs)

/-- Reads a decimal number, if there is one: an integer, or with a fraction or an exponent a floating-point number. -/
def decimal? (cs : List Char) : Option (Except Fault (Scanned Data)) :=
  let (negative, cs) := Text.splitSign cs
  match wholePart? cs with
  | none => none
  | some (ds, cs) =>
    match fraction cs with
    | (f, cs) =>
      match exponent cs with
      | (e, cs) =>
        if f.isNone ∧ e.isNone then
          if ds.length ≤ Text.maxDigits then some (.ok (.int (Text.signed negative (ofDigits 10 ds)), cs))
          else some (.error (.oversized ds.length))
        else
          let fs := f.getD []
          some (.ok (.real (Binary64.ofDecimal negative (ofDigits 10 (ds ++ fs)) (e.getD 0 - fs.length)), cs))

/-- Reads a number, if there is one. -/
def number? (cs : List Char) : Option (Except Fault (Scanned Data)) :=
  match otherBase? cs with
  | some r => some (.ok r)
  | none => decimal? cs

/-- Reads an infinity or the number that is none, if there is one. -/
def special? (cs : List Char) : Option (Data × List Char) :=
  let (negative, rest) := Text.splitSign cs
  match Text.afterWord? "inf" rest with
  | some rest => some (.real (.infinite negative), rest)
  | none => (Text.afterWord? "nan" rest).map fun rest => (.real .nan, rest)

end Caret.Toml
