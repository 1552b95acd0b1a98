import SchemaForm.Decimal.Binary64

/-!
# The shortest decimal of a double

`Binary64.shortest x` is the decimal with the fewest digits that rounds back to `x`, and among
those the one nearest to `x`, a tie going to the even last digit. It is found grid by grid: on the
grid of one digit, of two, and so on, only the two neighbours of the value have to be tried.
-/

namespace SchemaForm

/-- The non-negative number `coefficient * 10^exponent`. -/
structure Decimal where
  coefficient : Nat
  exponent : Int
deriving DecidableEq, Repr

namespace Decimal

/-- The decimal digits of a natural number, most significant first. -/
def digits (n : Nat) : List Char := Nat.toDigits 10 n

/-- Strips up to `fuel` trailing zeros from the coefficient. -/
def stripZeros : Nat → Decimal → Decimal
  | 0, d => d
  | fuel + 1, d =>
    if d.coefficient ≠ 0 ∧ d.coefficient % 10 = 0 then
      stripZeros fuel ⟨d.coefficient / 10, d.exponent + 1⟩
    else
      d

end Decimal

namespace Binary64

/-- Everything that rounds to a positive double, on a scale of `1 / (4 * unit)`: the value, the
ends of the interval around it, and whether the ends belong to it. -/
structure Rounding where
  value : Nat
  low : Nat
  high : Nat
  closed : Bool

/-- The rounding interval of the absolute value. Below a power of two the gap is half as wide. -/
def rounding (x : Binary64) : Rounding :=
  let value := 4 * x.magnitude
  let gap := Nat.pow 2 x.exponent
  let below := if x.significand = Nat.pow 2 52 ∧ 0 < x.exponent then gap else 2 * gap
  ⟨value, value - below, value + 2 * gap, x.significand % 2 == 0⟩

/-- The scale of `Rounding`: this many steps make the number one. -/
def scale : Nat := 4 * unit

/-- `coefficient * num / den` rounds to the double. -/
def Rounding.contains (r : Rounding) (coefficient num den : Nat) : Bool :=
  let point := coefficient * num * scale
  if r.closed then
    r.low * den ≤ point && point ≤ r.high * den
  else
    r.low * den < point && point < r.high * den

/-- The decimal on the grid of step `10^exponent` that rounds to the double, if there is one: of
two the nearer, of two equally near the even one. -/
def Rounding.onGrid? (r : Rounding) (exponent : Int) : Option Nat :=
  let num := Nat.pow 10 exponent.toNat
  let den := Nat.pow 10 (-exponent).toNat
  let floor := r.value * den / (num * scale)
  match r.contains floor num den, r.contains (floor + 1) num den with
  | true, true =>
    let down := r.value * den - floor * num * scale
    let up := (floor + 1) * num * scale - r.value * den
    if down < up ∨ (down = up ∧ floor % 2 = 0) then some floor else some (floor + 1)
  | true, false => some floor
  | false, true => some (floor + 1)
  | false, false => none

/-- The exponent of the leading decimal digit of a positive double. -/
def leadingExponent (x : Binary64) : Int :=
  let shift : Nat := 330
  ((Decimal.digits (x.magnitude * Nat.pow 10 shift / unit)).length : Int) - 1 - shift

/-- Tries the grids of `digits`, `digits + 1`, … digits, `fuel` of them. -/
def Rounding.search (r : Rounding) (leading : Int) : Nat → Nat → Decimal
  | 0, digits =>
    let exponent := leading + 1 - digits
    ⟨r.value * Nat.pow 10 (-exponent).toNat / (Nat.pow 10 exponent.toNat * scale), exponent⟩
  | fuel + 1, digits =>
    let exponent := leading + 1 - digits
    match r.onGrid? exponent with
    | some coefficient => ⟨coefficient, exponent⟩
    | none => r.search leading fuel (digits + 1)

/-- The fewest digits that round back to the absolute value of the double. -/
def shortest (x : Binary64) : Decimal :=
  if x.magnitude = 0 then ⟨0, 0⟩
  else (x.rounding.search x.leadingExponent 17 1).stripZeros 20

end Binary64
end SchemaForm
