/-!
# Finite binary64 numbers

A finite double is a sign, a significand below `2^53` and an exponent, and stands for
`± significand * 2^exponent * 2^-1074`. Counted in units of `2^-1074` every finite double is an
integer (`Binary64.units`), so order, equality, whole parts and rounding are integer arithmetic.
Infinities and NaN are no values of this type: an operation that overflows returns `none`.
-/

namespace SchemaForm

/-- A finite double in canonical form: the exponent is as small as the significand allows. -/
structure Binary64 where
  negative : Bool
  significand : Nat
  exponent : Nat
  significand_lt : significand < Nat.pow 2 53
  canonical : Nat.pow 2 52 ≤ significand ∨ exponent = 0
  exponent_le : exponent ≤ 2045
deriving DecidableEq

namespace Binary64

/-- The number of units of `2^-1074` in the number one. -/
def unit : Nat := Nat.pow 2 1074

/-- The absolute value in units of `2^-1074`. -/
def magnitude (x : Binary64) : Nat := x.significand * Nat.pow 2 x.exponent

/-- The value in units of `2^-1074`. -/
def units (x : Binary64) : Int := if x.negative then -(x.magnitude : Int) else x.magnitude

/-- Zero with a sign. -/
def zero (negative : Bool) : Binary64 := ⟨negative, 0, 0, by decide, .inr rfl, by decide⟩

/-- The largest finite double. -/
def largest (negative : Bool) : Binary64 :=
  ⟨negative, Nat.pow 2 53 - 1, 2045, by decide, .inl (by decide), by decide⟩

/-- The double with these fields, if they are canonical. -/
def make? (negative : Bool) (significand exponent : Nat) : Option Binary64 :=
  if h : significand < Nat.pow 2 53 ∧ (Nat.pow 2 52 ≤ significand ∨ exponent = 0) ∧
      exponent ≤ 2045 then
    some ⟨negative, significand, exponent, h.1, h.2.1, h.2.2⟩
  else
    none

/-- The quotient rounded to the nearest natural number, a tie to the even one. -/
def roundDiv (num den : Nat) : Nat :=
  let quotient := num / den
  let rest := num % den
  if 2 * rest < den ∨ (2 * rest = den ∧ quotient % 2 = 0) then quotient else quotient + 1

/-- The double nearest to `num / den` units, a tie to the even significand; `none` on overflow. -/
def nearest? (negative : Bool) (num den : Nat) : Option Binary64 :=
  let exponent := (num / den).log2 - 52
  let significand := roundDiv num (den * Nat.pow 2 exponent)
  if significand = Nat.pow 2 53 then
    make? negative (Nat.pow 2 52) (exponent + 1)
  else
    make? negative significand exponent

/-- The double nearest to an integer; an integer beyond the finite range gives the largest one. -/
def ofInt (n : Int) : Binary64 :=
  (nearest? (n < 0) (n.natAbs * unit) 1).getD (largest (n < 0))

/-- The double nearest to `± coefficient * 10^exponent`; `none` on overflow. Exponents that decide
the outcome by themselves are answered before any power of ten is formed. -/
def ofDecimal? (negative : Bool) (coefficient : Nat) (exponent : Int) : Option Binary64 :=
  if coefficient = 0 then
    some (zero negative)
  else if 310 < exponent then
    none
  else if exponent + ((Nat.log2 coefficient + 1 : Nat) : Int) < -400 then
    some (zero negative)
  else
    nearest? negative (coefficient * Nat.pow 10 exponent.toNat * unit)
      (Nat.pow 10 (-exponent).toNat)

/-- The product, rounded once. -/
def mul? (x y : Binary64) : Option Binary64 :=
  nearest? (x.negative != y.negative) (x.magnitude * y.magnitude) unit

/-- The quotient, rounded once; `none` also for a zero divisor. -/
def div? (x y : Binary64) : Option Binary64 :=
  if y.magnitude = 0 then none
  else nearest? (x.negative != y.negative) (x.magnitude * unit) y.magnitude

/-- The opposite number. -/
def neg (x : Binary64) : Binary64 := { x with negative := !x.negative }

/-- The number without its sign. -/
def abs (x : Binary64) : Binary64 := { x with negative := false }

/-- Numerical equality: the two zeros are equal. -/
def eq (x y : Binary64) : Bool := x.units == y.units

/-- Numerical order. -/
def lt (x y : Binary64) : Bool := decide (x.units < y.units)

/-- Numerical order, equality included. -/
def le (x y : Binary64) : Bool := decide (x.units ≤ y.units)

/-- The fractional part is zero. -/
def isWhole (x : Binary64) : Bool := x.magnitude % unit == 0

/-- The integer part, toward zero. -/
def trunc (x : Binary64) : Int :=
  let whole : Int := (x.magnitude / unit : Nat)
  if x.negative then -whole else whole

/-- The least signed integer of 64 bits. -/
def minInt64 : Int := -(Int.pow 2 63)

/-- The greatest signed integer of 64 bits. -/
def maxInt64 : Int := Int.pow 2 63 - 1

/-- The integer part as a signed integer of 64 bits: beyond their range it is the last one there. -/
def toInt64 (x : Binary64) : Int := max minInt64 (min x.trunc maxInt64)

end Binary64
end SchemaForm
