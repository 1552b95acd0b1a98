import SchemaForm.Decimal.Notation

/-!
# JSON numbers

A number is an integer or a double, and stays what it was read as: `1` and `1.0` have different
texts. `Number.identical` tells the kinds apart, `Number.equiv` compares the values.
-/

namespace SchemaForm

/-- A number of a JSON document. -/
inductive Number where
  | int (value : Int)
  | float (value : Binary64)
deriving DecidableEq

namespace Number

/-- The least integer that is kept exactly. -/
def minInt : Int := -(Int.pow 2 63)

/-- The greatest integer that is kept exactly. -/
def maxInt : Int := Int.pow 2 64 - 1

/-- The value as a double; integers of more than 53 bits are rounded. -/
def toBinary64 : Number → Binary64
  | int n => Binary64.ofInt n
  | float x => x

/-- The value as a count: only a non-negative integer is one. -/
def toNat? : Number → Option Nat
  | int n => if 0 ≤ n then some n.toNat else none
  | float _ => none

/-- Equal and of one kind. The two float zeros are equal. -/
def identical : Number → Number → Bool
  | int m, int n => m == n
  | float x, float y => x.eq y
  | _, _ => false

/-- Equal as doubles, whatever the kind. -/
def equiv (a b : Number) : Bool := a.identical b || a.toBinary64.eq b.toBinary64

/-- The exact value in units of `2^-1074`. -/
def units : Number → Int
  | int n => n * Binary64.unit
  | float x => x.units

/-- The integer part, toward zero. -/
def trunc : Number → Int
  | int n => n
  | float x => x.trunc

/-- The number is an integer, or a float without a fractional part. -/
def isWhole : Number → Bool
  | int _ => true
  | float x => x.isWhole

/-- The decimal text of an integer. -/
def intText (n : Int) : String :=
  let digits := String.ofList (Decimal.digits n.natAbs)
  if n < 0 then "-" ++ digits else digits

theorem toList_intText (n : Int) :
    (intText n).toList =
      if n < 0 then '-' :: Decimal.digits n.natAbs else Decimal.digits n.natAbs := by
  rw [intText]
  split
  · rw [String.toList_append, String.toList_ofList, String.toList_ofList]
    rfl
  · exact String.toList_ofList

/-- The text of a number in a JSON document. -/
def text : Number → String
  | int n => intText n
  | float x => x.text

end Number
end SchemaForm
