import SchemaForm.Schema.Type

/-!
# Initial values

What a field starts with: the `default` of its schema, and for an object without one the initial
values of its properties.
-/

namespace SchemaForm.Value

/-- The value that a new field starts with: `default`, or else `const`. -/
def initial? (schema : Json) : Option Json :=
  (schema.get? "default").orElse fun _ => schema.get? "const"

mutual

/-- The value that a schema seeds where there is none. -/
def seed? : Json → Option Json
  | .obj keywords =>
    match Entries.get? "default" keywords with
    | some v => some v
    | none =>
      match (Schema.types? (.obj keywords)).bind List.head? with
      | some .object =>
        match seedProperties keywords with
        | [] => none
        | fields => some (.obj fields)
      | _ => none
  | _ => none

/-- The seeded members of an object with these keywords. -/
def seedProperties : List (String × Json) → Fields
  | [] => []
  | (keyword, .obj properties) :: rest =>
    if keyword = "properties" then seedNamed properties else seedProperties rest
  | (keyword, _) :: rest => if keyword = "properties" then [] else seedProperties rest

/-- The names that seed a value, each with it. -/
def seedNamed : List (String × Json) → Fields
  | [] => []
  | (name, schema) :: rest =>
    match seed? schema with
    | some v => (name, v) :: seedNamed rest
    | none => seedNamed rest

end

/-- Data as they are, unless they are absent or null: then what the schema seeds. -/
def seedDefaults (schema : Json) (data : Option Json) : Option Json :=
  match data with
  | none | some .null => seed? schema
  | some v => some v

end SchemaForm.Value
