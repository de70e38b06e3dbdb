import Caret.Text.Quoted
/-!
# `Caret.Json.Writer` — writing JSON documents

Documents are written with two spaces of indentation per level. Strings keep every character but quotes, backslashes and
control characters as it is.
-/

namespace Caret

/-- A document to be written. Objects keep their keys in the given order. -/
inductive Json where
  | null
  | int (value : Int)
  | text (value : String)
  | list (items : List Json)
  | object (fields : List (String × Json))

namespace Json

/-- A text, or null where there is none. -/
def ofText? : Option String → Json
  | some s => .text s
  | none => .null

/-- A character inside a written string. -/
def writtenChar (c : Char) : List Char :=
  if c = '\x22' ∨ c = '\x5c' then ['\x5c', c]
  else if c = '\n' then ['\x5c', 'n']
  else if c = '\r' then ['\x5c', 'r']
  else if c = '\t' then ['\x5c', 't']
  else if c = '\x08' then ['\x5c', 'b']
  else if c = '\x0c' then ['\x5c', 'f']
  else if c.toNat < 0x20 then '\x5c' :: 'u' :: Text.hexDigits 4 c.toNat
  else [c]

/-- A written string. -/
def writtenText (s : String) : String := String.ofList ('\x22' :: s.toList.flatMap writtenChar ++ ['\x22'])

/-- A line end and the indentation of a level. -/
def newLine (level : Nat) : String := String.ofList ('\n' :: List.replicate (2 * level) ' ')

/-- Parts between two brackets, each on a line of its own. -/
def bracketed (left right : String) (level : Nat) (parts : List String) : String :=
  if parts.isEmpty then left ++ right
  else left ++ newLine (level + 1) ++ String.intercalate ("," ++ newLine (level + 1)) parts ++ newLine level ++ right

mutual

/-- A document at a level of indentation. -/
def writtenAt (level : Nat) : Json → String
  | .null => "null"
  | .int n => toString n
  | .text s => writtenText s
  | .list items => bracketed "[" "]" level (writtenItems (level + 1) items)
  | .object fields => bracketed "\x7b" "\x7d" level (writtenFields (level + 1) fields)

/-- The items of a list at a level of indentation. -/
def writtenItems (level : Nat) : List Json → List String
  | [] => []
  | j :: js => writtenAt level j :: writtenItems level js

/-- The fields of an object at a level of indentation. -/
def writtenFields (level : Nat) : List (String × Json) → List String
  | [] => []
  | f :: fs => writtenField level f :: writtenFields level fs

/-- A field of an object at a level of indentation. -/
def writtenField (level : Nat) : String × Json → String
  | (key, j) => writtenText key ++ ": " ++ writtenAt level j

end

/-- A whole document, with a line end after it. -/
def written (j : Json) : String := j.writtenAt 0 ++ "\n"

end Json
end Caret
