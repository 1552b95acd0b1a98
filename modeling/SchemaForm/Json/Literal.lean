import SchemaForm.Json.Number

/-!
# Number literals

How the digits of a JSON number become a `Number`. A literal without a point and an exponent is an
integer while it fits `Number.minInt … Number.maxInt`; everything else is a float. A float takes as
many leading digits as fit 64 bits, is rounded once for those digits and once for the power of ten
it is scaled by, and is refused when it overflows.
-/

namespace SchemaForm

/-- The parts of a number literal, digits as numbers below ten. -/
structure NumberLiteral where
  negative : Bool
  whole : List Nat
  fraction : Option (List Nat)
  exponent : Option Int

namespace NumberLiteral

/-- The leading digits taken so far: their value, and the power of ten they stand for. -/
structure Significand where
  value : Nat
  exponent : Int

/-- The largest significand. -/
def maxSignificand : Nat := Nat.pow 2 64 - 1

/-- Takes digits before the point until one does not fit; from there on each digit only counts. -/
def takeWhole (acc : Significand) : List Nat → Significand
  | [] => acc
  | digit :: rest =>
    let next := acc.value * 10 + digit
    if next ≤ maxSignificand then takeWhole ⟨next, acc.exponent⟩ rest
    else ⟨acc.value, acc.exponent + (rest.length + 1)⟩

/-- Takes digits after the point until one does not fit; the rest is dropped. -/
def takeFraction (acc : Significand) : List Nat → Significand
  | [] => acc
  | digit :: rest =>
    let next := acc.value * 10 + digit
    if next ≤ maxSignificand then takeFraction ⟨next, acc.exponent - 1⟩ rest else acc

/-- The power of ten of a non-negative exponent, as a double. -/
def powerOfTen? (exponent : Nat) : Option Binary64 := Binary64.ofDecimal? false 1 exponent

/-- The largest exponent whose power of ten is a double. -/
def maxPower : Nat := 308

/-- Divides by the largest power of ten, several times over unless nothing is left. -/
def divideOff? : Nat → Binary64 → Option Binary64
  | 0, x => some x
  | steps + 1, x =>
    if x.significand = 0 then some x
    else ((powerOfTen? maxPower).bind x.div?).bind (divideOff? steps)

/-- Scales a double by a power of ten. A divisor beyond the largest power is divided off in steps
of that size first. -/
def scale? (x : Binary64) (exponent : Int) : Option Binary64 :=
  if x.significand = 0 then
    some x
  else if 0 ≤ exponent then
    if exponent ≤ maxPower then (powerOfTen? exponent.toNat).bind x.mul? else none
  else
    let steps := ((-exponent).toNat - 1) / maxPower
    let rest := (-exponent).toNat - maxPower * steps
    (divideOff? steps x).bind fun x => (powerOfTen? rest).bind x.div?

/-- The float that a literal stands for. -/
def toBinary64? (literal : NumberLiteral) : Option Binary64 :=
  let whole := takeWhole ⟨0, 0⟩ literal.whole
  let all := takeFraction whole (literal.fraction.getD [])
  let scaled := scale? (Binary64.ofInt all.value) (all.exponent + literal.exponent.getD 0)
  scaled.map fun x => if literal.negative then x.neg else x

/-- The value of a run of digits. -/
def digitsValue (digits : List Nat) : Nat := digits.foldl (fun n d => n * 10 + d) 0

/-- The number that a literal stands for; `none` if it overflows. Minus zero is a float. -/
def toNumber? (literal : NumberLiteral) : Option Number :=
  let magnitude : Int := digitsValue literal.whole
  let exact := literal.fraction.isNone && literal.exponent.isNone
  if exact && !literal.negative && magnitude ≤ Number.maxInt then
    some (.int magnitude)
  else if exact && literal.negative && magnitude ≠ 0 && Number.minInt ≤ -magnitude then
    some (.int (-magnitude))
  else
    literal.toBinary64?.map .float

end NumberLiteral
end SchemaForm
