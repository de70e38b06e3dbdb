import Caret.Text.Integer
/-!
# `Caret.Position` — cursor positions and the ranges between them

A position is a line and a column, both unbounded integers, ordered by line first. A range is a pair of positions
in that order; it holds both of its ends, so two neighbouring ranges may share one position.

## Contents
- **Order on positions.** `Position.le_iff`/`Position.lt_iff` unfold the order into integer comparisons.
- **Ranges.** `Range.ofEnds?` builds a range, `contains`/`isBefore`/`isAfter` place a position relative to it.
- **Texts.** `Position.text?`, `Range.text?` — as they stand in messages, if their integers can be written.
-/

namespace Caret

/-- A place in a text: a line and a column. -/
structure Position where
  line : Int
  column : Int
  deriving DecidableEq, Repr, Inhabited

namespace Position

/-- Positions are compared by line, and within a line by column. -/
protected def le (p q : Position) : Prop := p.line < q.line ∨ (p.line = q.line ∧ p.column ≤ q.column)

/-- The strict part of the order by line, then column. -/
protected def lt (p q : Position) : Prop := p.line < q.line ∨ (p.line = q.line ∧ p.column < q.column)

instance : LE Position := ⟨Position.le⟩
instance : LT Position := ⟨Position.lt⟩

instance (p q : Position) : Decidable (p ≤ q) :=
  inferInstanceAs (Decidable (p.line < q.line ∨ (p.line = q.line ∧ p.column ≤ q.column)))

instance (p q : Position) : Decidable (p < q) :=
  inferInstanceAs (Decidable (p.line < q.line ∨ (p.line = q.line ∧ p.column < q.column)))

theorem le_iff {p q : Position} : p ≤ q ↔ p.line < q.line ∨ (p.line = q.line ∧ p.column ≤ q.column) := Iff.rfl

theorem lt_iff {p q : Position} : p < q ↔ p.line < q.line ∨ (p.line = q.line ∧ p.column < q.column) := Iff.rfl

/-- A position as it stands in a message: `(line, column)`. -/
def text? (p : Position) : Option String := (Text.decimals? [p.line, p.column]).map fun t => "(" ++ t ++ ")"

end Position

/-! ## Ranges -/

/-- A stretch of text between two positions, both of which belong to it. -/
structure Range where
  start : Position
  stop : Position
  /-- A range never ends before it starts. -/
  start_le_stop : start ≤ stop := by decide
  deriving DecidableEq, Repr

instance : Inhabited Range := ⟨⟨⟨0, 0⟩, ⟨0, 0⟩, by decide⟩⟩

namespace Range

/-- The range between two positions, if they come in order. -/
def ofEnds? (start stop : Position) : Option Range :=
  if h : start ≤ stop then some ⟨start, stop, h⟩ else none

/-- The position lies between the ends, ends included. -/
def contains (r : Range) (p : Position) : Bool := decide (r.start ≤ p) && decide (p ≤ r.stop)

/-- The range ends strictly before the position. -/
def isBefore (r : Range) (p : Position) : Bool := decide (r.stop < p)

/-- The range starts strictly after the position. -/
def isAfter (r : Range) (p : Position) : Bool := decide (p < r.start)

/-- The four integers of a range: start line, start column, end line, end column. -/
def coordinates (r : Range) : List Int := [r.start.line, r.start.column, r.stop.line, r.stop.column]

/-- A range as it stands in a message: its four integers in brackets. -/
def text? (r : Range) : Option String := (Text.decimals? r.coordinates).map fun t => "[" ++ t ++ "]"

/-- What is said of two ends that come in the wrong order. -/
def disorderText (start stop : Position) : String :=
  let message? := do return "Range start " ++ (← start.text?) ++ " is after its end " ++ (← stop.text?)
  message?.getD (Text.digitLimitText none)

end Range
end Caret
