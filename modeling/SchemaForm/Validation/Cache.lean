import SchemaForm.Field.Node
import SchemaForm.Json.Printer
import SchemaForm.SortedMap
import SchemaForm.Validation.Issue

/-!
# Kept validators

A field is checked alone, by its own schema and value. A schema is compiled once: what became of it,
a validator or nothing, is kept under the text of the schema. A field without a value, or with the
value `null` or the empty text, has nothing to be checked, and its schema is not compiled.
-/

namespace SchemaForm.Validation

/-- The value of a field as far as it is checked. -/
def checkedValue? (node : FieldNode) : Option Json :=
  match node.value with
  | none | some .null | some (.str "") => none
  | some v => some v

/-- Issues with paths from the root, `none` if there are none. -/
def reported? (path : String) (issues : List Issue) : Option (List Issue) :=
  if issues.isEmpty then none else some (issues.map (Issue.below path))

/-- What became of schemas, by their texts. -/
abbrev CompiledCache := SortedMap (Option (Json → List Issue))

namespace CompiledCache

/-- Nothing kept. -/
def empty : CompiledCache := SortedMap.empty

/-- The validator of a schema, if it can be compiled: the one kept, or a new one that is kept. -/
def get (validator : Validator) (schema : Json) (cache : CompiledCache) :
    Option (Json → List Issue) × CompiledCache :=
  match SortedMap.get? schema.text cache with
  | some kept => (kept, cache)
  | none =>
    let compiled := validator schema
    (compiled, SortedMap.insert schema.text compiled cache)

/-- The issues of a field; `none` if it has none or was not checked. -/
def check (validator : Validator) (node : FieldNode) (cache : CompiledCache) :
    Option (List Issue) × CompiledCache :=
  match checkedValue? node with
  | none => (none, cache)
  | some v =>
    let found := get validator node.schema cache
    (found.1.bind fun issuesOf => reported? node.path (issuesOf v), found.2)

end CompiledCache
end SchemaForm.Validation
