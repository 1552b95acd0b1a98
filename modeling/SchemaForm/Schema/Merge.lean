import SchemaForm.Schema.Location

/-!
# Merging schemas

`Schema.merge a b` joins two schemas into one, keyword by keyword in the order of `b`: types and
enumerations are intersected, requirements united, bounds tightened, nested schemas merged, and
composition keywords stay with the schema that had them first. What has no rule of its own is taken
from `b`. `Schema.flatten` folds every `allOf` into the schema that holds it.
-/

namespace SchemaForm.Schema

/-- How two values of one keyword are joined. -/
inductive MergeRule where
  | types
  | schemasByName
  | names
  | namesByName
  | options
  | schema
  | lowerBound
  | upperBound
  | first
  | last
deriving DecidableEq

/-- The rule of a keyword. -/
def mergeRule (keyword : String) : MergeRule :=
  if keyword = "type" then .types
  else if keyword = "properties" ∨ keyword = "dependentSchemas" then .schemasByName
  else if keyword = "required" then .names
  else if keyword = "dependentRequired" then .namesByName
  else if keyword = "enum" then .options
  else if keyword = "items" ∨ keyword = "additionalProperties" then .schema
  else if ["minimum", "exclusiveMinimum", "minLength", "minItems", "minProperties"].contains
      keyword then .lowerBound
  else if ["maximum", "exclusiveMaximum", "maxLength", "maxItems", "maxProperties"].contains
      keyword then .upperBound
  else if ["oneOf", "anyOf", "if", "then", "else", "not"].contains keyword then .first
  else .last

/-- The members of a value, none if it is no object. -/
def membersOf (v : Option Json) : Fields := (v.bind Json.fields?).getD []

/-- A list as it is, and any other value as a list of one. -/
def asList : Json → List Json
  | .arr items => items
  | v => [v]

/-- A list of one as its element, and any other list as it is. -/
def ofList : List Json → Json
  | [v] => v
  | items => .arr items

/-- The types that both sides name; a single one is not wrapped in a list. -/
def mergeTypes (a : Option Json) (b : Json) : Json :=
  match a with
  | none => b
  | some a => ofList ((asList a).filter fun type => type.memberOf (asList b))

/-- The elements of both lists, each once. What is no list adds nothing. -/
def mergeNames (a : Option Json) (b : Json) : Json :=
  .arr <| ((b.items?).getD []).foldl
    (fun names name => if name.memberOf names then names else names ++ [name])
    ((a.bind Json.items?).getD [])

/-- Unites the lists of each key. -/
def mergeNamesByName (a : Option Json) (b : Json) : Json :=
  match b with
  | .obj lists =>
    .obj <| lists.foldl
      (fun acc entry =>
        Entries.insert entry.1 (mergeNames (Entries.get? entry.1 acc) entry.2) acc)
      (membersOf a)
  | _ => b

/-- The options of the first list that the second has too. -/
def mergeOptions (a : Option Json) (b : Json) : Json :=
  match a, b with
  | some (.arr xs), .arr ys => .arr (xs.filter fun x => ys.any x.equiv)
  | _, b => b

/-- The bound of the first side where both are numbers and it is the tighter one. -/
def mergeBound (tighter : Binary64 → Binary64 → Bool) (a : Option Json) (b : Json) : Json :=
  match a, a.bind Json.double?, b.double? with
  | some a, some x, some y => if tighter x y then a else b
  | _, _, _ => b

/-- The joined value of a keyword whose value holds no schema to merge; `none` keeps the first
side. -/
def mergeValue (rule : MergeRule) (a : Option Json) (b : Json) : Option Json :=
  match rule with
  | .types => some (mergeTypes a b)
  | .names => some (mergeNames a b)
  | .namesByName => some (mergeNamesByName a b)
  | .options => some (mergeOptions a b)
  | .lowerBound => some (mergeBound (fun x y => y.le x) a b)
  | .upperBound => some (mergeBound Binary64.le a b)
  | .first => if a.isSome then none else some b
  | .schemasByName | .schema | .last => some b

mutual

/-- Joins two schemas. Of a schema object and something else the object is the result. -/
def merge : Json → Json → Json
  | .obj a, .obj b => .obj (mergeKeywords a b)
  | _, .obj b => .obj b
  | a, _ => a

/-- Joins the two values of a keyword; `none` keeps the first. -/
def mergeJoined (rule : MergeRule) (a : Option Json) (b : Json) : Option Json :=
  match b with
  | .obj entries =>
    match rule, a with
    | .schemasByName, a => some (.obj (mergeNamed (membersOf a) entries))
    | .schema, some (.obj a) => some (.obj (mergeKeywords a entries))
    | rule, a => mergeValue rule a (.obj entries)
  | _ => mergeValue rule a b

/-- Joins keywords into the ones gathered so far, which keep their places. -/
def mergeKeywords (acc : Fields) : List (String × Json) → Fields
  | [] => acc
  | (keyword, b) :: rest =>
    mergeKeywords
      (match mergeJoined (mergeRule keyword) (Entries.get? keyword acc) b with
        | some v => Entries.insert keyword v acc
        | none => acc) rest

/-- Joins named schemas into the ones gathered so far. -/
def mergeNamed (acc : Fields) : List (String × Json) → Fields
  | [] => acc
  | (name, b) :: rest =>
    let joined := (Entries.get? name acc).elim b fun a => merge a b
    mergeNamed (Entries.insert name joined acc) rest

end

/-- Joins a schema into gathered keywords; what is no object adds nothing. -/
def absorb (acc : Fields) : Json → Fields
  | .obj b => mergeKeywords acc b
  | _ => acc

theorem merge_obj (acc : Fields) (b : Json) : merge (.obj acc) b = .obj (absorb acc b) := by
  cases b <;> simp [merge, absorb]

/-- Folds the parts of `allOf` into the schema that holds them, from left to right. -/
def absorbParts (keywords : Fields) : Json :=
  let rest := Entries.swapErase "allOf" keywords
  match Entries.get? "allOf" keywords with
  | some (.arr parts) => .obj (parts.foldl absorb rest)
  | _ => .obj rest

/-- The schema without `allOf` at any place. -/
def flatten (schema : Json) : Json := bottomUp absorbParts schema

end SchemaForm.Schema
