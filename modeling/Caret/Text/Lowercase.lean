import Caret.Text.LetterCase
/-!
# `Caret.Text.Lowercase` — texts in small letters

Every capital letter of Unicode is replaced by its small form. Two letters need more than a table: the dotted capital I
has a small form of two characters, and the small form of the capital sigma depends on its neighbours.
-/

namespace Caret.Text

/-- The capital sigma, whose small form depends on its neighbours. -/
def capitalSigma : Char := Char.ofNat 0x3a3

/-- The small sigma inside and at the start of a word. -/
def smallSigma : Char := Char.ofNat 0x3c3

/-- The small sigma at the end of a word. -/
def finalSigma : Char := Char.ofNat 0x3c2

/-- The small form of a letter by itself; every other character stays. -/
def smallForm (c : Char) : List Char :=
  if c.toNat = 0x130 then ['i', Char.ofNat 0x307]
  else
    match capitals.find? (·.has c.toNat) with
    | some run => [Char.ofNat ((c.toNat : Int) + run.shift).toNat]
    | none => [c]

/-- The nearest character that counts, going away from a letter, is a letter with case. -/
def meetsCased (cs : List Char) : Bool :=
  match cs.dropWhile caseIgnorable.has with
  | [] => false
  | c :: _ => casedLetters.has c

/-- A sigma ends a word when a letter stands before it and none after it. `before` lists what precedes it, nearest
first. -/
def endsWord (before after : List Char) : Bool := meetsCased before && !meetsCased after

/-- The small letters of a text that follows `before` (nearest first). -/
def lowerAfter (before : List Char) : List Char → List Char
  | [] => []
  | c :: rest =>
    let here := if c = capitalSigma then [if endsWord before rest then finalSigma else smallSigma] else smallForm c
    here ++ lowerAfter (c :: before) rest

/-- A text in small letters. -/
def lowercase (s : String) : List Char := lowerAfter [] s.toList

end Caret.Text
