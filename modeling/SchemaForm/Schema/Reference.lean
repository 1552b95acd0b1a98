import SchemaForm.Pointer
import SchemaForm.Schema.Merge
import SchemaForm.Schema.Normalize

/-!
# References

Replaces each `$ref` into the root definitions by the definition it names. A reference is not
expanded inside its own expansion, which ends every cycle; such a reference, and one without a
definition, stays as it is with the keywords beside it. `Schema.prepare` is the whole preparation
of a schema: normal form, references, `allOf`.
-/

namespace SchemaForm.Schema

/-- The text of a reference, if the schema is one. -/
def reference? (keywords : Fields) : Option String := (Entries.get? "$ref" keywords).bind Json.str?

mutual

/-- Replaces the references that have a target. The schemas below a replaced or a kept reference
are not visited. -/
def inlineWith (target? : String → Option Json) : Json → Json
  | .obj keywords =>
    match reference? keywords with
    | some reference => (target? reference).getD (.obj keywords)
    | none => .obj (inlineKeywords target? keywords)
  | v => v

/-- Replaces references below a list of keywords. -/
def inlineKeywords (target? : String → Option Json) : List (String × Json) → Fields
  | [] => []
  | (keyword, .obj entries) :: rest =>
    (keyword, match holder? keyword with
      | some .byName => .obj (inlineNamed target? entries)
      | some .single =>
        match reference? entries with
        | some reference => (target? reference).getD (.obj entries)
        | none => .obj (inlineKeywords target? entries)
      | _ => .obj entries) :: inlineKeywords target? rest
  | (keyword, .arr items) :: rest =>
    (keyword, match holder? keyword with
      | some .list => .arr (inlineItems target? items)
      | _ => .arr items) :: inlineKeywords target? rest
  | (keyword, v) :: rest => (keyword, v) :: inlineKeywords target? rest

/-- Replaces references below schemas held by name. -/
def inlineNamed (target? : String → Option Json) : List (String × Json) → Fields
  | [] => []
  | (name, v) :: rest => (name, inlineWith target? v) :: inlineNamed target? rest

/-- Replaces references below schemas held in a list. -/
def inlineItems (target? : String → Option Json) : List Json → List Json
  | [] => []
  | v :: rest => inlineWith target? v :: inlineItems target? rest

end

mutual

/-- Every text under a `$ref` key anywhere in a value. -/
def references : Json → List String
  | .arr items => referencesItems items
  | .obj entries => referencesEntries entries
  | _ => []

/-- The references in the elements of an array. -/
def referencesItems : List Json → List String
  | [] => []
  | v :: rest => references v ++ referencesItems rest

/-- The references in the members of an object. -/
def referencesEntries : List (String × Json) → List String
  | [] => []
  | (key, .str text) :: rest =>
    if key = "$ref" then text :: referencesEntries rest else referencesEntries rest
  | (_, v) :: rest => references v ++ referencesEntries rest

end

/-- The definitions at the root of a schema: `$defs`, else `definitions`. -/
def definitions (schema : Json) : Fields :=
  ((schema.getFields? "$defs").orElse fun _ => schema.getFields? "definitions").getD []

/-- The written name behind one of the two places for definitions. -/
def definitionName? (reference : String) : Option String :=
  let name? := fun front : String => Pointer.after? front.toList reference.toList
  ((name? "#/$defs/").orElse fun _ => name? "#/definitions/").map Pointer.decode

/-- The definition that a reference names. -/
def definition? (definitions : Fields) (reference : String) : Option Json :=
  (definitionName? reference).bind fun name => Entries.get? name definitions

/-- The texts other than one of them. -/
def others (reference : String) (available : List String) : List String :=
  available.filter (· ≠ reference)

theorem length_others_lt {reference : String} {available : List String}
    (h : reference ∈ available) : (others reference available).length < available.length :=
  List.length_filter_lt_length_iff_exists.2 ⟨reference, h, by simp⟩

/-- Expands the references of a schema, each only where it is still available. -/
def expand (definitions : Fields) (available : List String) (schema : Json) : Json :=
  inlineWith (fun reference =>
    if _h : reference ∈ available then
      (definition? definitions reference).map
        (expand definitions (others reference available))
    else
      none) schema
termination_by available.length
decreasing_by exact length_others_lt _h

/-- The schema with its references expanded. Every reference that can be met stands somewhere in
the schema, so at first all of those are available. -/
def resolveReferences (schema : Json) : Json :=
  expand (definitions schema) (references schema) schema

/-- The schema as the form is built from it. -/
def prepare (schema : Json) : Json := flatten (resolveReferences (normalize schema))

end SchemaForm.Schema
