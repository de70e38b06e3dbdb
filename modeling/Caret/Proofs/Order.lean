import Caret.Position
import Mathlib.Order.Defs.LinearOrder
/-!
# `Caret.Proofs.Order` — positions in order

Positions are ordered like pairs of integers with the line in front. This is a linear order, so what follows from
that is taken from the theory of linear orders. A range cuts the positions into those before it, in it and after it.

## Contents
- **The order.** The instance `LinearOrder Position`.
- **Ranges.** `Range.ofEnds?_eq_some_iff`, `Range.contains_iff`, `Range.contains_or_outside`.
-/

namespace Caret

instance : LinearOrder Position where
  le_refl p := Position.le_iff.mpr (Or.inr ⟨rfl, Int.le_refl _⟩)
  le_trans p q r hpq hqr := by
    rw [Position.le_iff] at *
    omega
  lt_iff_le_not_ge p q := by
    rw [Position.lt_iff, Position.le_iff, Position.le_iff]
    omega
  le_antisymm p q hpq hqp := by
    obtain ⟨line, column⟩ := p
    obtain ⟨line', column'⟩ := q
    rw [Position.le_iff] at hpq hqp
    obtain ⟨hline, hcolumn⟩ : line = line' ∧ column = column' := by
      dsimp only at hpq hqp
      omega
    rw [hline, hcolumn]
  le_total p q := by
    rw [Position.le_iff, Position.le_iff]
    omega
  toDecidableLE := inferInstance
  toDecidableLT := inferInstance
  toDecidableEq := inferInstance

/-! ## Ranges -/

namespace Range

/-- A range is made of two ends that come in order, and these are its ends. -/
theorem ofEnds?_eq_some_iff {s e : Position} {r : Range} : ofEnds? s e = some r ↔ r.start = s ∧ r.stop = e := by
  unfold ofEnds?
  constructor
  · intro h
    split at h
    · obtain rfl := Option.some.inj h
      exact ⟨rfl, rfl⟩
    · contradiction
  · rintro ⟨rfl, rfl⟩
    rw [dif_pos r.start_le_stop]

/-- Both ends belong to a range. -/
theorem contains_iff {r : Range} {p : Position} : r.contains p = true ↔ r.start ≤ p ∧ p ≤ r.stop := by
  simp [contains]

theorem isBefore_iff {r : Range} {p : Position} : r.isBefore p = true ↔ r.stop < p := by
  simp [isBefore]

theorem isAfter_iff {r : Range} {p : Position} : r.isAfter p = true ↔ p < r.start := by
  simp [isAfter]

/-- A position is before, in or after a range. -/
theorem contains_or_outside (r : Range) (p : Position) :
    r.contains p = true ∨ r.isBefore p = true ∨ r.isAfter p = true := by
  rw [contains_iff, isBefore_iff, isAfter_iff]
  rcases lt_or_ge p r.start with hahead | hstart
  · exact Or.inr (Or.inr hahead)
  · rcases lt_or_ge r.stop p with hended | hstop
    · exact Or.inr (Or.inl hended)
    · exact Or.inl ⟨hstart, hstop⟩

end Range
end Caret
