import SchemaForm.Schema.Type

/-!
# The type of a field

A field has one type or several alternatives. The declared types decide; without them the shape of
the schema, then its values, then the data at hand, and a field about which nothing is known is a
string.
-/

namespace SchemaForm

/-- The alternatives for the type of a field, in order. -/
structure FieldType where
  alternatives : List JsonType
deriving DecidableEq

namespace FieldType

/-- A single type. -/
def single (type : JsonType) : FieldType := ⟨[type]⟩

/-- The type is one of the alternatives. -/
def includes (t : FieldType) (type : JsonType) : Bool := t.alternatives.contains type

/-- The first alternative. -/
def primary? (t : FieldType) : Option JsonType := t.alternatives.head?

/-- One type is written by its name, several as a list of names. -/
def toJson (t : FieldType) : Json :=
  match t.alternatives with
  | [type] => .str type.name
  | types => .arr (types.map fun type => .str type.name)

end FieldType

namespace Schema

/-- A keyword stands in the schema and is not switched off. -/
def declares (schema : Json) (keyword : String) : Bool :=
  match schema.get? keyword with
  | none => false
  | some (.bool false) => false
  | some _ => true

/-- The one type of all options of an enumeration. -/
def optionsType? (schema : Json) : Option JsonType :=
  match (schema.getItems? "enum").getD [] with
  | [] => none
  | first :: rest =>
    let type := JsonType.of first
    if rest.all fun option => JsonType.of option == type then some type else none

/-- The type that the shape of a schema or its values imply. -/
def impliedType? (schema : Json) : Option JsonType :=
  if ["properties", "additionalProperties", "patternProperties"].any (declares schema) then
    some .object
  else if ["items", "prefixItems"].any (declares schema) then
    some .array
  else
    (optionsType? schema).orElse fun _ => (schema.get? "const").map JsonType.of

/-- The type of a field with this schema and these data. -/
def fieldType (schema : Json) (data : Option Json) : FieldType :=
  match types? schema with
  | some (type :: types) => ⟨type :: types⟩
  | _ =>
    .single <| match impliedType? schema with
      | some type => type
      | none => (data.map JsonType.of).getD .string

end Schema
end SchemaForm
