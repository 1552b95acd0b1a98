import SchemaForm.Schema.Type

/-!
# Matching

`Schema.accepts` decides whether data fits a schema well enough to choose a branch. It reads fewer
keywords than validation does: `const` decides alone, then `enum`; otherwise `type`, `properties`,
`required`, and the bounds on numbers and strings have to hold. Absent data fails `const`, `enum`
and `type`, and nothing else.

Regular expressions are not part of the library. `Patterns` stands for whatever reads and searches
them, and everything that matches data takes it as an instance. `Schema.acceptsBy` goes by any
relation of patterns to texts.
-/

namespace SchemaForm

/-- Regular expressions. -/
class Patterns where
  /-- Whether a text holds a match of a pattern; `none` if the pattern is no expression. -/
  search? : String → Option (String → Bool)

namespace Schema

/-- Absent data has no type; present data needs one of the declared ones. -/
def typeHolds (schema : Json) (data : Option Json) : Bool :=
  match types? schema with
  | none => true
  | some types => data.any fun d => types.any (·.admits d)

/-- Every required name is a key of the object. -/
def requiredHolds (schema : Json) (fields : Fields) : Bool :=
  ((schema.getItems? "required").getD []).all fun name =>
    match name with
    | .str key => Entries.contains key fields
    | _ => true

/-- A number lies within the bounds. -/
def rangeHolds (schema : Json) (n : Number) : Bool :=
  let x := n.toBinary64
  let bound := fun keyword : String => (schema.get? keyword).bind Json.double?
  !((bound "minimum").any fun least => x.lt least) &&
    !((bound "maximum").any fun most => most.lt x)

section

-- `engine pattern text` says whether the text matches the pattern.
variable (engine : String → String → Bool)

/-- A string is long enough and matches the pattern. -/
def textHolds (schema : Json) (s : String) : Bool :=
  !(((schema.get? "minLength").bind Json.nat?).any fun least => s.length < least) &&
    (((schema.get? "pattern").bind Json.str?).all fun pattern => engine pattern s)

/-- The bounds that apply to the kind of value at hand. -/
def boundsHold (schema : Json) : Option Json → Bool
  | some (.num n) => rangeHolds schema n
  | some (.str s) => textHolds engine schema s
  | _ => true

mutual

/-- The data fits the schema. A schema that is no object is a truth value, or accepts all. -/
def acceptsBy : Json → Option Json → Bool
  | .obj keywords, data =>
    match Entries.get? "const" keywords with
    | some expected => data.any fun d => d.equiv expected
    | none =>
      match (Json.obj keywords).getItems? "enum" with
      | some options => data.any fun d => options.any d.equiv
      | none =>
        typeHolds (.obj keywords) data &&
          (match data with
            | some (.obj fields) =>
              propertiesHold keywords fields && requiredHolds (.obj keywords) fields
            | _ => true) &&
          boundsHold engine (.obj keywords) data
  | .bool b, _ => b
  | _, _ => true

/-- The members of an object fit the schemas under `properties`. -/
def propertiesHold : List (String × Json) → Fields → Bool
  | [], _ => true
  | (keyword, .obj properties) :: rest, fields =>
    if keyword = "properties" then namedHold properties fields else propertiesHold rest fields
  | (keyword, _) :: rest, fields =>
    if keyword = "properties" then true else propertiesHold rest fields

/-- Each named schema accepts the member of that name, present or absent. -/
def namedHold : List (String × Json) → Fields → Bool
  | [], _ => true
  | (name, schema) :: rest, fields =>
    acceptsBy schema (Entries.get? name fields) && namedHold rest fields

end

end

/-- The text holds a match of the pattern. A pattern that is no expression is ignored. -/
def patternHolds [Patterns] (pattern text : String) : Bool :=
  (Patterns.search? pattern).all fun search => search text

/-- The data fits the schema, whose patterns are regular expressions. -/
def accepts [Patterns] (schema : Json) (data : Option Json) : Bool :=
  acceptsBy patternHolds schema data

end Schema
end SchemaForm
