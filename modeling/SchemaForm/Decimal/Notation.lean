import SchemaForm.Decimal.Shortest

/-!
# Decimal notation

Lays out a shortest decimal as text. `Decimal.plain` never uses an exponent; `Notation` says
between which exponents a number is written positionally.
-/

namespace SchemaForm

namespace Decimal

/-- The digits of the coefficient with a point after `point` of them: the text before and after
the point. -/
def split (d : Decimal) : List Char × List Char :=
  let digits := Decimal.digits d.coefficient
  let point : Int := digits.length + d.exponent
  if point ≤ 0 then
    (['0'], List.replicate (-point).toNat '0' ++ digits)
  else if (digits.length : Int) ≤ point then
    (digits ++ List.replicate (point.toNat - digits.length) '0', [])
  else
    (digits.take point.toNat, digits.drop point.toNat)

/-- Positional notation; a whole number has no point. -/
def plain (d : Decimal) : String :=
  let (whole, fraction) := d.split
  String.ofList (if fraction.isEmpty then whole else whole ++ '.' :: fraction)

/-- Positional notation with at least one digit after the point. -/
def pointed (d : Decimal) : String :=
  let (whole, fraction) := d.split
  String.ofList (whole ++ '.' :: (if fraction.isEmpty then ['0'] else fraction))

/-- The exponent of the leading digit. -/
def leading (d : Decimal) : Int := (Decimal.digits d.coefficient).length + d.exponent - 1

/-- One digit before the point, the rest after it, and a signed exponent. -/
def scientific (d : Decimal) : String :=
  let mantissa := match Decimal.digits d.coefficient with
    | digit :: next :: rest => digit :: '.' :: next :: rest
    | short => short
  let sign := if d.leading < 0 then '-' else '+'
  String.ofList (mantissa ++ 'e' :: sign :: Decimal.digits d.leading.natAbs)

end Decimal

namespace Binary64

/-- A sign in front of the text of an absolute value. -/
def signed (x : Binary64) (text : String) : String := if x.negative then "-" ++ text else text

/-- Positional notation with the fewest digits; a whole number has no point. -/
def plain (x : Binary64) : String := x.signed x.shortest.plain

/-- The notation of JSON text: positional with a digit after the point while the leading exponent
lies in `-5 … 15`, and scientific beyond. -/
def text (x : Binary64) : String :=
  let d := x.shortest
  if d.coefficient = 0 ∨ (-5 ≤ d.leading ∧ d.leading ≤ 15) then x.signed d.pointed
  else x.signed d.scientific

end Binary64
end SchemaForm
