import SchemaForm.Schema.Location

/-!
# Normal form

Brings the older spellings in a schema up to date, at every place: `definitions` becomes `$defs`,
a list under `items` becomes `prefixItems`, truth values under `exclusiveMinimum` and
`exclusiveMaximum` become numbers, and `dependencies` splits into `dependentRequired` and
`dependentSchemas`. A keyword that is taken away leaves its place to the last one.
-/

namespace SchemaForm.Schema

/-- `definitions` becomes `$defs`, unless there is one. -/
def renameDefinitions (keywords : Fields) : Fields :=
  if Entries.contains "$defs" keywords then
    keywords
  else
    match Entries.get? "definitions" keywords with
    | some definitions => (Entries.swapErase "definitions" keywords).insert "$defs" definitions
    | none => keywords

/-- A list under `items` becomes `prefixItems`, and `additionalItems` becomes `items`. -/
def splitTuple (keywords : Fields) : Fields :=
  match Entries.get? "items" keywords with
  | some (.arr items) =>
    let renamed := (Entries.swapErase "items" keywords).insert "prefixItems" (.arr items)
    let rest := Entries.swapErase "additionalItems" renamed
    match Entries.get? "additionalItems" renamed with
    | some (.bool true) => rest.insert "items" Json.empty
    | some schema => rest.insert "items" schema
    | none => rest
  | _ => keywords

/-- A truth value under an exclusive bound takes the plain bound over, or goes. -/
def numberBound (exclusive bound : String) (keywords : Fields) : Fields :=
  match Entries.get? exclusive keywords with
  | some (.bool flag) =>
    match flag, Entries.get? bound keywords with
    | true, some limit => (Entries.swapErase bound keywords).insert exclusive limit
    | _, _ => Entries.swapErase exclusive keywords
  | _ => keywords

/-- Moves one dependency to the keyword that fits it; a keyword that is no object loses it. -/
def moveDependency (keywords : Fields) (trigger : String) (dependency : Json) : Fields :=
  let keyword := if dependency.isArr then "dependentRequired" else "dependentSchemas"
  match Entries.get? keyword keywords with
  | none => keywords.insert keyword (.obj [(trigger, dependency)])
  | some (.obj entries) =>
    keywords.insert keyword (.obj (Entries.insert trigger dependency entries))
  | some _ => keywords

/-- `dependencies` splits into lists of names and schemas. -/
def splitDependencies (keywords : Fields) : Fields :=
  let rest := Entries.swapErase "dependencies" keywords
  match Entries.get? "dependencies" keywords with
  | some (.obj dependencies) =>
    dependencies.foldl (fun acc entry => moveDependency acc entry.1 entry.2) rest
  | _ => rest

/-- The current spelling of the keywords of one schema. -/
def currentKeywords (keywords : Fields) : Fields :=
  splitDependencies
    (numberBound "exclusiveMaximum" "maximum"
      (numberBound "exclusiveMinimum" "minimum"
        (splitTuple (renameDefinitions keywords))))

mutual

/-- The number of levels of nesting, at least one. -/
def levels : Json → Nat
  | .arr items => 1 + levelsItems items
  | .obj entries => 1 + levelsEntries entries
  | _ => 1

/-- The most levels of an element. -/
def levelsItems : List Json → Nat
  | [] => 0
  | v :: rest => max (levels v) (levelsItems rest)

/-- The most levels of a member. -/
def levelsEntries : List (String × Json) → Nat
  | [] => 0
  | (_, v) :: rest => max (levels v) (levelsEntries rest)

end

/-- Normalizes the first `depth` levels. -/
def normalizeLevels : Nat → Json → Json
  | depth + 1, .obj keywords => .obj (mapSchemas (normalizeLevels depth) (currentKeywords keywords))
  | _, v => v

/-- The schema in current spelling at every place. No spelling is deeper than the one it
replaces, so all levels are reached. -/
def normalize (schema : Json) : Json := normalizeLevels (levels schema) schema

end SchemaForm.Schema
