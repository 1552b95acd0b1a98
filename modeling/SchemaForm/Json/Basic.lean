import SchemaForm.Entries
import SchemaForm.Json.Number

/-!
# JSON values

Objects keep the order of their members. Absent data is `none : Option Json`, which is not the
value `null`.

Two equalities compare values structurally and objects without regard to member order: `identical`
tells `1` from `1.0`, `equiv` does not. `size` is the measure by which schema fragments shrink.
-/

namespace SchemaForm

/-- A JSON value. -/
inductive Json where
  | null
  | bool (value : Bool)
  | num (value : Number)
  | str (value : String)
  | arr (items : List Json)
  | obj (entries : List (String × Json))
deriving Inhabited

/-- The members of an object, in order. -/
abbrev Fields := Entries Json

namespace Json

/-- An integer value. -/
def int (n : Int) : Json := .num (.int n)

/-- The object without members. -/
def empty : Json := .obj []

/-- The members, if the value is an object. -/
def fields? : Json → Option Fields
  | .obj entries => some entries
  | _ => none

/-- The elements, if the value is an array. -/
def items? : Json → Option (List Json)
  | .arr items => some items
  | _ => none

/-- The text, if the value is a string. -/
def str? : Json → Option String
  | .str s => some s
  | _ => none

/-- The truth value, if the value is a boolean. -/
def bool? : Json → Option Bool
  | .bool b => some b
  | _ => none

/-- The number, if the value is one. -/
def num? : Json → Option Number
  | .num n => some n
  | _ => none

/-- The number as a double, if the value is a number. -/
def double? (v : Json) : Option Binary64 := v.num?.map Number.toBinary64

/-- The number as a count, if the value is a non-negative integer. -/
def nat? (v : Json) : Option Nat := v.num?.bind Number.toNat?

/-- The value is an object. -/
def isObj : Json → Bool
  | .obj _ => true
  | _ => false

/-- The value is an array. -/
def isArr : Json → Bool
  | .arr _ => true
  | _ => false

/-- The member of an object under a key. -/
def get? (key : String) : Json → Option Json
  | .obj entries => Entries.get? key entries
  | _ => none

/-- The member under a key, if it is an object: its members. -/
def getFields? (key : String) (v : Json) : Option Fields := (v.get? key).bind fields?

/-- The member under a key, if it is an array: its elements. -/
def getItems? (key : String) (v : Json) : Option (List Json) := (v.get? key).bind items?

mutual

/-- The number of values in a value, itself included. -/
def size : Json → Nat
  | .arr items => 1 + sizeItems items
  | .obj entries => 1 + sizeEntries entries
  | _ => 1

/-- The total size of the elements of an array. -/
def sizeItems : List Json → Nat
  | [] => 0
  | v :: rest => v.size + sizeItems rest

/-- The total size of the members of an object. -/
def sizeEntries : List (String × Json) → Nat
  | [] => 0
  | (_, v) :: rest => v.size + sizeEntries rest

end

mutual

/-- Structural equality up to member order, with numbers compared by `same`. -/
def agree (same : Number → Number → Bool) : Json → Json → Bool
  | .null, .null => true
  | .bool a, .bool b => a == b
  | .num m, .num n => same m n
  | .str a, .str b => a == b
  | .arr xs, .arr ys => agreeItems same xs ys
  | .obj xs, .obj ys => xs.length == ys.length && agreeEntries same xs ys
  | _, _ => false

/-- Elements agree position by position. -/
def agreeItems (same : Number → Number → Bool) : List Json → List Json → Bool
  | [], [] => true
  | x :: xs, y :: ys => agree same x y && agreeItems same xs ys
  | _, _ => false

/-- Every member on the left has an agreeing one on the right. -/
def agreeEntries (same : Number → Number → Bool) : List (String × Json) → Fields → Bool
  | [], _ => true
  | (key, x) :: rest, ys =>
    (match Entries.get? key ys with
      | some y => agree same x y
      | none => false) && agreeEntries same rest ys

end

/-- Equality that tells an integer from a float: `1` is not `1.0`. -/
def identical (a b : Json) : Bool := agree Number.identical a b

/-- Equality with JSON number semantics: `1` equals `1.0`. -/
def equiv (a b : Json) : Bool := agree Number.equiv a b

/-- No two elements are equal, with JSON number semantics. -/
def distinct : List Json → Bool
  | [] => true
  | v :: rest => !rest.any v.equiv && distinct rest

/-- The list has an element identical to the value. -/
def memberOf (v : Json) (items : List Json) : Bool := items.any (identical v)

end Json
end SchemaForm
