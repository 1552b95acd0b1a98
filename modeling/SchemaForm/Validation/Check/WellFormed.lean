import SchemaForm.Schema.Type

/-!
# Well-formed schemas

`Schema.isWellFormed` decides whether a value is a schema at all: every known keyword, at every
place, has a value of the shape that the keyword asks for. Unknown keywords may hold anything.
-/

namespace SchemaForm.Schema

/-- What the value of a keyword has to look like. -/
inductive Shape where
  | schema
  /-- At least one schema. -/
  | schemas
  | mapOf (shape : Shape)
  | schemaOrNames
  | list
  | text
  | flag
  | number
  | positive
  | count
  /-- Distinct texts. -/
  | names
  /-- A type, or distinct types. -/
  | types
  /-- A text that can name a place: letters, digits and `-._`, a letter or `_` first. -/
  | anchor
  /-- A text without a fragment: a `#` may only end it. -/
  | identifier

/-- The shape that a keyword asks for. -/
def shape? : String → Option Shape
  | "$id" => some .identifier
  | "$anchor" | "$dynamicAnchor" | "$recursiveAnchor" => some .anchor
  | "$schema" | "$ref" | "$dynamicRef" | "$recursiveRef" | "$comment" => some .text
  | "$vocabulary" => some (.mapOf .flag)
  | "$defs" | "definitions" | "properties" | "patternProperties" | "dependentSchemas" =>
    some (.mapOf .schema)
  | "prefixItems" | "allOf" | "anyOf" | "oneOf" => some .schemas
  | "items" | "contains" | "additionalProperties" | "propertyNames" | "if" | "then" | "else"
  | "not" | "unevaluatedItems" | "unevaluatedProperties" | "contentSchema" => some .schema
  | "dependencies" => some (.mapOf .schemaOrNames)
  | "type" => some .types
  | "enum" | "examples" => some .list
  | "multipleOf" => some .positive
  | "minimum" | "maximum" | "exclusiveMinimum" | "exclusiveMaximum" => some .number
  | "minLength" | "maxLength" | "minItems" | "maxItems" | "minContains" | "maxContains"
  | "minProperties" | "maxProperties" => some .count
  | "pattern" | "format" | "title" | "description" | "contentEncoding" | "contentMediaType" =>
    some .text
  | "uniqueItems" | "deprecated" | "readOnly" | "writeOnly" => some .flag
  | "required" => some .names
  | "dependentRequired" => some (.mapOf .names)
  | _ => none

/-- Texts only, no two alike. -/
def areNames (items : List Json) : Bool := items.all (·.str?.isSome) && Json.distinct items

/-- The value is the name of a type. -/
def isTypeName (v : Json) : Bool := (v.str?.bind JsonType.ofName?).isSome

/-- The value lists at least one type, none twice. -/
def areTypes (items : List Json) : Bool :=
  !items.isEmpty && items.all isTypeName && Json.distinct items

/-- The number is whole and not negative. -/
def isCount (n : Number) : Bool := n.isWhole && 0 ≤ n.units

/-- The number is above zero. -/
def isPositive (n : Number) : Bool := 0 < n.units

/-- The character may stand in an anchor. -/
def isAnchorChar (c : Char) : Bool := c.isAlphanum || ['-', '.', '_'].contains c

/-- The text can name a place. -/
def isAnchor (text : String) : Bool :=
  match text.toList with
  | [] => false
  | c :: rest => (c.isAlpha || c == '_') && rest.all isAnchorChar

/-- No `#` stands before the last character. -/
def isIdentifier (text : String) : Bool := !text.toList.dropLast.contains '#'

mutual

/-- The value has the shape. -/
def Shape.admits : Shape → Json → Bool
  | .schema, .bool _ => true
  | .schema, .obj keywords => keywordsAdmitted keywords
  | .schemas, .arr items => !items.isEmpty && schemasAdmitted items
  | .mapOf shape, .obj entries => valuesAdmitted shape entries
  | .schemaOrNames, .bool _ => true
  | .schemaOrNames, .obj keywords => keywordsAdmitted keywords
  | .schemaOrNames, .arr items => areNames items
  | .list, .arr _ => true
  | .text, .str _ => true
  | .flag, .bool _ => true
  | .number, .num _ => true
  | .positive, .num n => isPositive n
  | .count, .num n => isCount n
  | .names, .arr items => areNames items
  | .types, .str name => (JsonType.ofName? name).isSome
  | .types, .arr items => areTypes items
  | .anchor, .str text => isAnchor text
  | .identifier, .str text => isIdentifier text
  | _, _ => false

/-- Every keyword has a value of its shape. -/
def keywordsAdmitted : List (String × Json) → Bool
  | [] => true
  | (keyword, v) :: rest =>
    (match shape? keyword with
      | some shape => shape.admits v
      | none => true) && keywordsAdmitted rest

/-- Every element is a schema. -/
def schemasAdmitted : List Json → Bool
  | [] => true
  | v :: rest => Shape.schema.admits v && schemasAdmitted rest

/-- Every member has the shape. -/
def valuesAdmitted (shape : Shape) : List (String × Json) → Bool
  | [] => true
  | (_, v) :: rest => shape.admits v && valuesAdmitted shape rest

end

/-- The value is a schema. -/
def isWellFormed (schema : Json) : Bool := Shape.schema.admits schema

end SchemaForm.Schema
