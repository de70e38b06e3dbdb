import Caret.Toml.Scalar
import Caret.Toml.Table
/-!
# `Caret.Toml.Reader` — reading TOML documents

Statements are read line by line and carried out on a `Document`. Values nest, so the recursion over them is bounded
by the length of the text, of which every step takes some.
-/

namespace Caret.Toml

/-! ## Keys -/

/-- A character of a key without quotes. -/
def isBareKey (c : Char) : Bool := c.isAlphanum || c == '-' || c == '_'

/-- Reads one part of a key. -/
def keyPart : List Char → Except Fault (Scanned String)
  | [] => .error .malformed
  | c :: rest =>
    if isBareKey c then
      .ok (String.ofList ((c :: rest).takeWhile isBareKey), (c :: rest).dropWhile isBareKey)
    else if c = '\x22' ∨ c = '\x27' then oneLine c rest
    else .error .malformed

/-- Reads the parts of a key, with points between them, and the white space after it. -/
def key : (fuel : Nat) → List Char → Except Fault (Scanned KeyPath)
  | 0, _ => .error .malformed
  | fuel + 1, cs => do
    let (part, cs) ← keyPart cs
    match skipSpace cs with
    | '.' :: cs => do
      let (parts, cs) ← key fuel (skipSpace cs)
      return (part :: parts, cs)
    | cs => return ([part], cs)

/-! ## Values -/

/-- What follows a comment, which may be absent. It stops at the end of the line. -/
def skipComment : List Char → Except Fault (List Char)
  | '#' :: rest =>
    if (rest.takeWhile (· != '\n')).any isControl then .error .malformed else .ok (rest.dropWhile (· != '\n'))
  | cs => .ok cs

/-- What follows comments, white space and line ends. -/
def skipBetween : (fuel : Nat) → List Char → Except Fault (List Char)
  | 0, cs => .ok cs
  | fuel + 1, cs =>
    match cs.dropWhile isSpaceOrEnd with
    | '#' :: rest => skipComment ('#' :: rest) >>= skipBetween fuel
    | cs => .ok cs

mutual

/-- Reads a value. -/
def value : (fuel : Nat) → List Char → Except Fault (Scanned Data)
  | 0, _ => .error .malformed
  | _, [] => .error .malformed
  | fuel + 1, c :: rest =>
    if c = '\x22' ∨ c = '\x27' then (string c rest).map fun (s, rest) => (.text s, rest)
    else if c = '[' then do
      let cs ← skipBetween rest.length rest
      match cs with
      | ']' :: cs => return (.list [], cs)
      | cs =>
        let (items, cs) ← items fuel cs
        return (.list items, cs)
    else if c = '\x7b' then
      match skipSpace rest with
      | '\x7d' :: cs => .ok (.table [], cs)
      | cs => inlineFields fuel {} cs
    else
      match Text.afterWord? "true" (c :: rest), Text.afterWord? "false" (c :: rest) with
      | some cs, _ => .ok (.bool true, cs)
      | _, some cs => .ok (.bool false, cs)
      | none, none =>
        match moment? (c :: rest) with
        | some r => r
        | none =>
          match number? (c :: rest) with
          | some r => r
          | none =>
            match special? (c :: rest) with
            | some r => .ok r
            | none => .error .malformed

/-- Reads the items of a list up to its closing bracket, of which there is at least one more. -/
def items : (fuel : Nat) → List Char → Except Fault (Scanned (List Data))
  | 0, _ => .error .malformed
  | fuel + 1, cs => do
    let (v, cs) ← value fuel cs
    let cs ← skipBetween cs.length cs
    match cs with
    | ']' :: cs => return ([v], cs)
    | ',' :: cs =>
      let cs ← skipBetween cs.length cs
      match cs with
      | ']' :: cs => return ([v], cs)
      | cs =>
        let (vs, cs) ← items fuel cs
        return (v :: vs, cs)
    | _ => throw .malformed

/-- Reads the fields of an inline table up to its closing brace, of which there is at least one more. -/
def inlineFields : (fuel : Nat) → Inline → List Char → Except Fault (Scanned Data)
  | 0, _, _ => .error .malformed
  | fuel + 1, t, cs => do
    let (keys, cs) ← key cs.length cs
    match cs with
    | '=' :: cs =>
      let (v, cs) ← value fuel (skipSpace cs)
      match t.set keys v with
      | none => throw .malformed
      | some t =>
        match skipSpace cs with
        | '\x7d' :: cs => return (.table t.fields, cs)
        | ',' :: cs => inlineFields fuel t (skipSpace cs)
        | _ => throw .malformed
    | _ => throw .malformed

end

/-! ## Statements -/

/-- A change that may be refused. -/
def orMalformed {α : Type} : Option α → Except Fault α
  | some a => .ok a
  | none => .error .malformed

/-- Reads a header after its opening brackets, and carries it out. -/
def header (closing : String) (carryOut : KeyPath → Option Document) (cs : List Char) :
    Except Fault (Scanned Document) := do
  let cs := skipSpace cs
  let (path, cs) ← key cs.length cs
  let document ← orMalformed (carryOut path)
  let cs ← orMalformed (Text.afterWord? closing cs)
  return (document, cs)

/-- Reads a key with its value, and sets it. -/
def keyValue (d : Document) (cs : List Char) : Except Fault (Scanned Document) := do
  let (keys, cs) ← key cs.length cs
  match cs with
  | '=' :: cs =>
    let (v, cs) ← value (2 * cs.length + 2) (skipSpace cs)
    return (← orMalformed (d.setValue keys v), cs)
  | _ => throw .malformed

/-- Reads a statement, if there is one before the comment or the end of the line. -/
def statement (d : Document) (cs : List Char) : Except Fault (Scanned Document) :=
  match cs with
  | '[' :: '[' :: rest => header "]]" d.appendTable rest
  | '[' :: rest => header "]" d.openHeader rest
  | '#' :: _ => .ok (d, cs)
  | '\n' :: _ => .ok (d, cs)
  | [] => .ok (d, cs)
  | cs => keyValue d cs

/-- Reads the lines of a document. -/
def lineByLine : (fuel : Nat) → Document → List Char → Except Fault Document
  | 0, _, _ => .error .malformed
  | fuel + 1, d, cs => do
    let (d, cs) ← statement d (skipSpace cs)
    let cs ← skipComment (skipSpace cs)
    match cs with
    | [] => return d
    | '\n' :: cs => lineByLine fuel d cs
    | _ => throw .malformed

/-- A text with its two-character line ends made single. -/
def singleLineEnds : List Char → List Char
  | '\r' :: '\n' :: rest => '\n' :: singleLineEnds rest
  | c :: rest => c :: singleLineEnds rest
  | [] => []

/-- Reads a TOML document. -/
def parse (text : String) : Except Fault Fields :=
  let cs := singleLineEnds text.toList
  (lineByLine (cs.length + 1) {} cs).map Document.fields

end Caret.Toml
