import Caret.Data
import Caret.Document.Fault
import Caret.Position
import Caret.Text.Integer
/-!
# `Caret.Document.Reading` — reading values out of documents with every fault reported

A reading is a value or the faults that prevent one. Readings are combined side by side, not one after the other, so
that the faults of all parts come out together.

## Contents
- **Readings.** The applicative `Reading`, and `Reading.under` which puts a step in front of every fault.
- **Fields.** `required`, `optional`, `nullable`, `listOf`, `tableOf`.
- **Values.** `text`, `flag`, `integer`, `range`, `oneOf`.
-/

namespace Caret

/-- The outcome of reading a value: the value, or everything that is wrong. -/
inductive Reading (α : Type) where
  | done (value : α)
  | failed (faults : List Fault)

namespace Reading

variable {α β : Type}

/-- The reading of a value with one problem, at the value itself. -/
def fault (problem : Problem) : Reading α := .failed [⟨[], problem⟩]

/-- A function applied to what was read. -/
protected def map (f : α → β) : Reading α → Reading β
  | .done a => .done (f a)
  | .failed es => .failed es

/-- Two readings side by side. -/
protected def seq : Reading (α → β) → Reading α → Reading β
  | .done f, .done a => .done (f a)
  | .done _, .failed es => .failed es
  | .failed es, .done _ => .failed es
  | .failed es, .failed es' => .failed (es ++ es')

instance : Applicative Reading where
  pure := .done
  map := Reading.map
  seq f x := Reading.seq f (x ())

@[simp] theorem pure_eq (a : α) : (pure a : Reading α) = .done a := rfl
@[simp] theorem map_done (f : α → β) (a : α) : f <$> (Reading.done a) = .done (f a) := rfl
@[simp] theorem map_failed (f : α → β) (es : List Fault) : f <$> (Reading.failed es : Reading α) = .failed es := rfl

theorem seq_eq_done_iff {f : Reading (α → β)} {x : Reading α} {b : β} :
    f <*> x = .done b ↔ ∃ g a, f = .done g ∧ x = .done a ∧ g a = b := by
  show Reading.seq f x = _ ↔ _
  cases f <;> cases x <;> simp [Reading.seq]

/-- The reading of a part, with the step that leads to the part in front of its faults. -/
def under (step : Step) : Reading α → Reading α
  | .done a => .done a
  | .failed es => .failed (es.map fun e => ⟨step :: e.path, e.problem⟩)

@[simp] theorem under_eq_done_iff {step : Step} {r : Reading α} {a : α} : r.under step = .done a ↔ r = .done a := by
  cases r <;> simp [under]

/-- A check on what was read. -/
def andThen (check : α → Reading β) : Reading α → Reading β
  | .done a => check a
  | .failed es => .failed es

/-! ## Fields and items -/

/-- A field that has to be there. -/
def required (key : String) (read : Data → Reading α) (fields : List (String × Data)) : Reading α :=
  match Data.get? fields key with
  | some v => (read v).under (.key key)
  | none => (fault .missing).under (.key key)

/-- A field that may be left out. -/
def optional (key : String) (default : α) (read : Data → Reading α) (fields : List (String × Data)) : Reading α :=
  match Data.get? fields key with
  | some v => (read v).under (.key key)
  | none => .done default

/-- A value that may be null. -/
def nullable (read : Data → Reading α) : Data → Reading (Option α)
  | .null => .done none
  | v => some <$> read v

/-- The items of a list from an index on. -/
def itemsFrom (read : Data → Reading α) (i : Nat) : List Data → Reading (List α)
  | [] => .done []
  | v :: vs => List.cons <$> (read v).under (.index i) <*> itemsFrom read (i + 1) vs

/-- A list. -/
def listOf (read : Data → Reading α) : Data → Reading (List α)
  | .list vs => itemsFrom read 0 vs
  | _ => fault .notList

/-- A table. -/
def tableOf (read : List (String × Data) → Reading α) : Data → Reading α
  | .table fields => read fields
  | _ => fault .notTable

/-! ## Single values -/

/-- A text. -/
def text : Data → Reading String
  | .text s => .done s
  | _ => fault .notText

/-- One of some words, each with its meaning. -/
def oneOf (words : List (String × α)) : Data → Reading α
  | .text s =>
    match words.lookup s with
    | some a => .done a
    | none => fault .notAllowed
  | _ => fault .notAllowed

/-- The words for a flag that is set, in small letters. -/
def setWords : List String := ["true", "t", "yes", "y", "on", "1"]

/-- The words for a flag that is not set, in small letters. -/
def unsetWords : List String := ["false", "f", "no", "n", "off", "0"]

/-- The least integer beyond 64 signed bits. -/
def signedLimit : Int := (Nat.pow 2 63 : Nat)

/-- The integer lies between the bounds of 64 signed bits. -/
def fitsSigned (n : Int) : Bool := decide (-signedLimit ≤ n) && decide (n < signedLimit)

/-- An integer taken as a flag. -/
def flagOfInt (n : Int) : Reading Bool :=
  if n = 0 then .done false
  else if n = 1 then .done true
  else if fitsSigned n then fault .malformedFlag
  else fault .notFlag

/-- A flag: a truth value, zero or one, or one of the words for it in any case of its letters. -/
def flag : Data → Reading Bool
  | .bool b => .done b
  | .int n => flagOfInt n
  | .real x =>
    match x.toInt? with
    | some n => if -signedLimit < n then flagOfInt n else fault .notFlag
    | none => fault .notFlag
  | .text s =>
    let word := s.map Char.toLower
    if setWords.contains word then .done true
    else if unsetWords.contains word then .done false
    else fault .malformedFlag
  | _ => fault .notFlag

/-- An integer, also as a truth value, as a number without a fraction, or spelled as a text. The digits of a text are
limited, those of an integer itself are not. -/
def integer : Data → Reading Int
  | .int n => .done n
  | .bool b => .done (if b then 1 else 0)
  | .real x =>
    if x.isFinite then
      match x.toInt? with
      | some n => if -signedLimit < n ∧ n < signedLimit then .done n else fault .hugeInteger
      | none => fault .fractional
    else fault .notFinite
  | .text s =>
    match Text.wholeNumber? s with
    | some n => if Text.digitCount n ≤ Text.maxDigits then .done n else fault .hugeInteger
    | none => fault .malformedInteger
  | _ => fault .notInteger

/-- The item of a list that has to be there. -/
def item (read : Data → Reading α) (vs : List Data) (i : Nat) : Reading α :=
  match vs[i]? with
  | some v => (read v).under (.index i)
  | none => (fault .missing).under (.index i)

/-- What is said of a range whose ends come in the wrong order. -/
def disorderText (start stop : Position) : String :=
  let message? := do
    let first ← Text.decimals? [start.line, start.column]
    let last ← Text.decimals? [stop.line, stop.column]
    return "range start [" ++ first ++ "] is after its end [" ++ last ++ "]"
  message?.getD (Text.digitLimitText none)

/-- The range between two positions, which have to come in order. -/
def ordered (ends : Position × Position) : Reading Range :=
  match Range.ofEnds? ends.1 ends.2 with
  | some r => .done r
  | none => fault (.invalid (disorderText ends.1 ends.2))

/-- A range: its four integers in a list. -/
def range : Data → Reading Range
  | .list vs =>
    if 4 < vs.length then fault .tooLong
    else
      ((fun a b c d => ((⟨a, b⟩, ⟨c, d⟩) : Position × Position)) <$> item integer vs 0 <*> item integer vs 1
        <*> item integer vs 2 <*> item integer vs 3).andThen ordered
  | _ => fault .notQuadruple

end Reading
end Caret
