/-!
# `Caret.Number.Binary64` — binary floating-point numbers with 53 significant bits

A finite number is an integer times a power of two, so its value is exact and can be compared with integers. The one
operation that rounds is `Binary64.ofDecimal`: it takes the nearest number of the format, and of two equally near
ones that with an even significand.
-/

namespace Caret

/-- A number of the 64-bit binary format. -/
inductive Binary64 where
  /-- The value `significand * 2 ^ exponent`. -/
  | finite (significand : Int) (exponent : Int)
  | infinite (negative : Bool)
  | nan
  deriving DecidableEq, Repr, Inhabited

namespace Binary64

/-- A quotient rounded to the nearest integer, a half going to the even one. -/
def roundDiv (num den : Nat) : Nat :=
  let q := num / den
  let r := num % den
  if den < 2 * r ∨ (2 * r = den ∧ q % 2 = 1) then q + 1 else q

/-- The least exponent of the format. -/
def minExponent : Int := -1074

/-- The exponent at which a positive quotient has 53 significant bits, or the least one of the format. -/
def exponentFor (num den : Nat) : Int :=
  let e := (num.log2 : Int) - den.log2 - 52
  let tooHigh :=
    if 0 ≤ e + 52 then decide (num < den * Nat.pow 2 (e + 52).toNat)
    else decide (num * Nat.pow 2 (-(e + 52)).toNat < den)
  max minExponent (if tooHigh then e - 1 else e)

/-- The nearest number to a positive quotient. -/
def ofQuotient (negative : Bool) (num den : Nat) : Binary64 :=
  let e := exponentFor num den
  let q := if 0 ≤ e then roundDiv num (den * Nat.pow 2 e.toNat) else roundDiv (num * Nat.pow 2 (-e).toNat) den
  if 971 < e ∨ (e = 971 ∧ Nat.pow 2 53 ≤ q) then .infinite negative
  else .finite (if negative then -(q : Int) else q) e

/-- The nearest number to `digits * 10 ^ exponent`. Values far outside the format are settled by their size alone. -/
def ofDecimal (negative : Bool) (digits : Nat) (exponent : Int) : Binary64 :=
  if digits = 0 then .finite 0 0
  else
    let size := ((Nat.toDigits 10 digits).length : Int) + exponent
    if 400 < size then .infinite negative
    else if size < -400 then .finite 0 0
    else if 0 ≤ exponent then ofQuotient negative (digits * Nat.pow 10 exponent.toNat) 1
    else ofQuotient negative digits (Nat.pow 10 (-exponent).toNat)

/-- The number as an integer, if it is one. -/
def toInt? : Binary64 → Option Int
  | .finite m e =>
    if 0 ≤ e then some (m * (Nat.pow 2 e.toNat : Nat))
    else if m % (Nat.pow 2 (-e).toNat : Nat) = 0 then some (m / (Nat.pow 2 (-e).toNat : Nat)) else none
  | _ => none

/-- The number is finite. -/
def isFinite : Binary64 → Bool
  | .finite .. => true
  | _ => false

end Binary64
end Caret
