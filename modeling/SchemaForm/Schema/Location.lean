import SchemaForm.Json.Basic

/-!
# Where a schema holds schemas

Some keywords hold schemas: by name, in a list, or as a single value. Everything that recurses
through a schema goes through `holder?`; `mapSchemas` replaces the schemas directly below a schema,
`bottomUp` rebuilds a schema from its leaves, and `visits` lists the schemas with their places.
-/

namespace SchemaForm.Schema

/-- How the value of a keyword holds schemas. -/
inductive Holder where
  | byName
  | single
  | list
deriving DecidableEq

/-- How a keyword holds schemas, if it does. -/
def holder? (keyword : String) : Option Holder :=
  if ["$defs", "properties", "patternProperties", "dependentSchemas"].contains keyword then
    some .byName
  else if ["additionalProperties", "items", "not", "if", "then", "else", "contains"].contains
      keyword then
    some .single
  else if ["prefixItems", "allOf", "anyOf", "oneOf"].contains keyword then
    some .list
  else
    none

/-- Replaces the schemas in the value of a keyword. A single value counts only if it is an
object. -/
def mapHeld (f : Json → Json) : Option Holder → Json → Json
  | some .byName, .obj entries => .obj (entries.map fun entry => (entry.1, f entry.2))
  | some .single, .obj entries => f (.obj entries)
  | some .list, .arr items => .arr (items.map f)
  | _, v => v

/-- Replaces the schemas directly below a schema with these keywords. -/
def mapSchemas (f : Json → Json) (keywords : Fields) : Fields :=
  keywords.map fun entry => (entry.1, mapHeld f (holder? entry.1) entry.2)

mutual

/-- Rebuilds a schema from its leaves: `f` sees the keywords with the schemas below already
rebuilt. -/
def bottomUp (f : Fields → Json) : Json → Json
  | .obj keywords => f (bottomUpKeywords f keywords)
  | v => v

/-- Rebuilds the schemas below a list of keywords. -/
def bottomUpKeywords (f : Fields → Json) : List (String × Json) → Fields
  | [] => []
  | (keyword, .obj entries) :: rest =>
    (keyword, match holder? keyword with
      | some .byName => .obj (bottomUpNamed f entries)
      | some .single => f (bottomUpKeywords f entries)
      | _ => .obj entries) :: bottomUpKeywords f rest
  | (keyword, .arr items) :: rest =>
    (keyword, match holder? keyword with
      | some .list => .arr (bottomUpItems f items)
      | _ => .arr items) :: bottomUpKeywords f rest
  | (keyword, v) :: rest => (keyword, v) :: bottomUpKeywords f rest

/-- Rebuilds schemas held by name. -/
def bottomUpNamed (f : Fields → Json) : List (String × Json) → Fields
  | [] => []
  | (name, v) :: rest => (name, bottomUp f v) :: bottomUpNamed f rest

/-- Rebuilds schemas held in a list. -/
def bottomUpItems (f : Fields → Json) : List Json → List Json
  | [] => []
  | v :: rest => bottomUp f v :: bottomUpItems f rest

end

mutual

/-- The schema objects of a schema, each behind its place, depth first and in keyword order.
Names stand in a place as they are, without escapes. -/
def visits (place : String) : Json → List (String × Json)
  | .obj keywords => (place, .obj keywords) :: visitsKeywords place keywords
  | _ => []

/-- The schema objects below a list of keywords. -/
def visitsKeywords (place : String) : List (String × Json) → List (String × Json)
  | [] => []
  | (keyword, .obj entries) :: rest =>
    (match holder? keyword with
      | some .byName => visitsNamed (place ++ "/" ++ keyword) entries
      | some .single =>
        (place ++ "/" ++ keyword, .obj entries) :: visitsKeywords (place ++ "/" ++ keyword) entries
      | _ => []) ++ visitsKeywords place rest
  | (keyword, .arr items) :: rest =>
    (match holder? keyword with
      | some .list => visitsItems (place ++ "/" ++ keyword) 0 items
      | _ => []) ++ visitsKeywords place rest
  | _ :: rest => visitsKeywords place rest

/-- The schema objects below schemas held by name. -/
def visitsNamed (place : String) : List (String × Json) → List (String × Json)
  | [] => []
  | (name, v) :: rest => visits (place ++ "/" ++ name) v ++ visitsNamed place rest

/-- The schema objects below schemas held in a list, the first of which has a number. -/
def visitsItems (place : String) (index : Nat) : List Json → List (String × Json)
  | [] => []
  | v :: rest => visits (place ++ "/" ++ toString index) v ++ visitsItems place (index + 1) rest

end

/-- The schema objects of a document, each behind its place below `#`. -/
def traverse (schema : Json) : List (String × Json) := visits "#" schema

end SchemaForm.Schema
