import SchemaForm.Validation.Check.Demand
import SchemaForm.Validation.Check.Fault

/-!
# Assertions

The keywords that say something about a value without going into another schema. `faults` lists
what is wrong with a value under one keyword; a keyword that is about another kind of value finds
nothing. Numbers are compared exactly, lengths of texts count code points.
-/

namespace SchemaForm.Validation

/-- A fault if a rule is broken. -/
def faultIf (broken : Bool) (fault : Fault) : List Fault := if broken then [fault] else []

/-- The count that a limit stands for. -/
def count? (limit : Json) : Option Nat := limit.num?.map fun n => n.trunc.toNat

/-- The error below which a quotient counts as whole: `2^-52`, in units. -/
def slack : Nat := Nat.pow 2 1022

/-- The number is a multiple. By a divisor with a fractional part this is decided on the rounded
quotient: it may miss a whole number by less than `slack`, and a negative one always passes. -/
def isMultiple (divisor x : Binary64) : Bool :=
  if divisor.isWhole then
    x.isWhole && x.magnitude % divisor.magnitude == 0
  else
    match x.div? divisor with
    | some quotient =>
      let rest := quotient.magnitude % Binary64.unit
      quotient.negative || rest < slack || Binary64.unit - slack < rest
    | none => x.magnitude % divisor.magnitude == 0

/-- What is wrong with a number. -/
def numberFaults (keyword : String) (limit : Json) (bound n : Number) : List Fault :=
  match keyword with
  | "minimum" => faultIf (n.units < bound.units) (.belowMinimum limit)
  | "maximum" => faultIf (bound.units < n.units) (.aboveMaximum limit)
  | "exclusiveMinimum" => faultIf (n.units ≤ bound.units) (.notAboveMinimum limit)
  | "exclusiveMaximum" => faultIf (bound.units ≤ n.units) (.notBelowMaximum limit)
  | "multipleOf" =>
    faultIf (!isMultiple bound.toBinary64 n.toBinary64) (.notMultiple bound.toBinary64)
  | _ => []

/-- The text has a part that matches the pattern. -/
def matchesPattern (pattern text : String) : Bool :=
  (expression? pattern).all fun r => r.search text

/-- What is wrong with a text. -/
def textFaults (keyword : String) (limit : Json) (s : String) : List Fault :=
  match keyword, limit, count? limit with
  | "minLength", _, some least => faultIf (s.length < least) (.tooShort least)
  | "maxLength", _, some most => faultIf (most < s.length) (.tooLong most)
  | "pattern", .str pattern, _ => faultIf (!matchesPattern pattern s) (.noMatch pattern)
  | _, _, _ => []

/-- What is wrong with an array. -/
def arrayFaults (keyword : String) (limit : Json) (items : List Json) : List Fault :=
  match keyword, limit, count? limit with
  | "minItems", _, some least => faultIf (items.length < least) (.tooFewItems least)
  | "maxItems", _, some most => faultIf (most < items.length) (.tooManyItems most)
  | "uniqueItems", .bool true, _ => faultIf (!Json.distinct items) .repeatedItems
  | _, _, _ => []

/-- The names among a list that are no keys of an object. -/
def missingNames (names : List Json) (fields : Fields) : List Fault :=
  ((names.filterMap Json.str?).filter fun key => !Entries.contains key fields).map .missing

/-- What is wrong with an object. -/
def objectFaults (keyword : String) (limit : Json) (fields : Fields) : List Fault :=
  match keyword, limit, count? limit with
  | "minProperties", _, some least => faultIf (fields.length < least) (.tooFewProperties least)
  | "maxProperties", _, some most => faultIf (most < fields.length) (.tooManyProperties most)
  | "required", .arr names, _ => missingNames names fields
  | "dependentRequired", .obj entries, _ =>
    (entries.filter fun entry => Entries.contains entry.1 fields).flatMap fun entry =>
      missingNames (entry.2.items?.getD []) fields
  | _, _, _ => []

/-- What is wrong with a value of any kind. -/
def valueFaults (keyword : String) (limit v : Json) : List Fault :=
  match keyword with
  | "type" =>
    match Schema.typesOf? limit with
    | some types => faultIf (!types.any (·.admits v)) (.wrongType types)
    | none => []
  | "enum" => faultIf (!(limit.items?.getD []).any v.equiv) (.notListed limit)
  | "const" => faultIf (!v.equiv limit) (.notConstant limit)
  | _ => []

/-- What is wrong with a value under a keyword. -/
def faults (keyword : String) (limit v : Json) : List Fault :=
  valueFaults keyword limit v ++
    match v, limit with
    | .num n, .num bound => numberFaults keyword limit bound n
    | .str s, _ => textFaults keyword limit s
    | .arr items, _ => arrayFaults keyword limit items
    | .obj fields, _ => objectFaults keyword limit fields
    | _, _ => []

end SchemaForm.Validation
