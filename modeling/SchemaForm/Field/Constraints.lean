import SchemaForm.Json.Basic

/-!
# Constraints

The validation keywords of a schema that a field repeats. A keyword of the wrong kind is left out.
-/

namespace SchemaForm

/-- The constraints of a field. -/
structure Constraints where
  minimum : Option Binary64
  maximum : Option Binary64
  exclusiveMinimum : Option Binary64
  exclusiveMaximum : Option Binary64
  multipleOf : Option Binary64
  minLength : Option Nat
  maxLength : Option Nat
  pattern : Option String
  format : Option String
  minItems : Option Nat
  maxItems : Option Nat
  uniqueItems : Option Bool
  minProperties : Option Nat
  maxProperties : Option Nat
  options : Option (List Json)
  constant : Option Json

namespace Constraints

/-- The constraints that a schema states. -/
def ofSchema (schema : Json) : Constraints :=
  let double := fun keyword : String => (schema.get? keyword).bind Json.double?
  let count := fun keyword : String => (schema.get? keyword).bind Json.nat?
  let text := fun keyword : String => (schema.get? keyword).bind Json.str?
  { minimum := double "minimum"
    maximum := double "maximum"
    exclusiveMinimum := double "exclusiveMinimum"
    exclusiveMaximum := double "exclusiveMaximum"
    multipleOf := double "multipleOf"
    minLength := count "minLength"
    maxLength := count "maxLength"
    pattern := text "pattern"
    format := text "format"
    minItems := count "minItems"
    maxItems := count "maxItems"
    uniqueItems := (schema.get? "uniqueItems").bind Json.bool?
    minProperties := count "minProperties"
    maxProperties := count "maxProperties"
    options := schema.getItems? "enum"
    constant := schema.get? "const" }

/-- The constraints as an object of the keywords that are stated. -/
def toJson (c : Constraints) : Json :=
  let double := fun (keyword : String) (x : Option Binary64) =>
    (x.map fun x => (keyword, Json.num (.float x))).toList
  let count := fun (keyword : String) (n : Option Nat) =>
    (n.map fun n => (keyword, Json.int n)).toList
  let value := fun (keyword : String) (v : Option Json) => (v.map fun v => (keyword, v)).toList
  .obj <|
    double "minimum" c.minimum ++ double "maximum" c.maximum ++
    double "exclusiveMinimum" c.exclusiveMinimum ++ double "exclusiveMaximum" c.exclusiveMaximum ++
    double "multipleOf" c.multipleOf ++ count "minLength" c.minLength ++
    count "maxLength" c.maxLength ++ value "pattern" (c.pattern.map Json.str) ++
    value "format" (c.format.map Json.str) ++ count "minItems" c.minItems ++
    count "maxItems" c.maxItems ++ value "uniqueItems" (c.uniqueItems.map Json.bool) ++
    count "minProperties" c.minProperties ++ count "maxProperties" c.maxProperties ++
    value "enum" (c.options.map Json.arr) ++ value "const" c.constant

end Constraints
end SchemaForm
