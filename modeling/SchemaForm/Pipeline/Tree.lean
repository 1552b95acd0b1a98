import SchemaForm.Field.Node
import SchemaForm.Pipeline.Selection
import SchemaForm.Schema.Match

/-!
# The field tree

Builds the fields of a form from a schema and data. Properties and array elements become children;
where the schema offers branches, the first one that fits the data is merged in and its children
are taken over. The fields are listed so that a parent follows what lies below it, which is the
order in which they enter the index.
-/

namespace SchemaForm

/-- The fields of a form by path. -/
abbrev FieldIndex := SortedMap FieldNode

namespace FieldTree

open Json Schema

/-- The branches that a schema offers, and the one that fits the data. -/
def ownCombinator? [Patterns] (schema : Json) (data : Option Json) : Option Combinator :=
  (branches? (membersOf (some schema))).map fun (kind, options) =>
    Combinator.matched kind options fun option => accepts option data

/-- The branch that fits the data, where the keywords offer branches. -/
def fittingBranch? [Patterns] (options : List Json) (data : Option Json) : Option Json :=
  options.find? fun option => accepts option data

/-- The schema of the elements behind the prefix. -/
def itemSchema (schema : Json) : Json :=
  match schema.get? "items" with
  | some (.obj fields) => .obj fields
  | _ => Json.empty

/-- What can be done with the elements of an array with this schema. -/
def arrayMeta (schema : Json) (items : List Json) : ArrayMeta where
  itemSchema := itemSchema schema
  prefixItems := schema.getItems? "prefixItems"
  canAdd := ((schema.get? "maxItems").bind nat?).all fun most => items.length < most
  canRemove := ((schema.get? "minItems").bind nat?).all fun least => least < items.length
  canReorder := true

/-- The elements of the data, none if they are no array. -/
def elements (data : Option Json) : List Json := (data.bind items?).getD []

/-- The names that a schema requires. -/
def requiredNames (schema : Json) : List String :=
  ((schema.getItems? "required").getD []).filterMap str?

/-- A keyword of the schema is true. -/
def flagged (schema : Json) (keyword : String) : Bool :=
  ((schema.get? keyword).bind bool?).getD false

/-- The field at a path, with its children known. The branches of its own schema go before a
pinned choice. -/
def node [Patterns] (pinned : SortedMap Combinator) (schema : Json) (data : Option Json)
    (path : String) (origin : Origin) (required : Bool) (children : List String) : FieldNode :=
  let type := fieldType schema data
  let own := ownCombinator? schema data
  let combinator := own.orElse fun _ => pinned.get? path
  let meta? :=
    if own.isNone && type.includes .array then some (arrayMeta schema (elements data)) else none
  { path, schema, type, children, required, combinator, origin
    value := data
    readOnly := flagged schema "readOnly"
    deprecated := flagged schema "deprecated"
    active := true
    constraints := Constraints.ofSchema schema
    arrayMeta := meta?
    kind :=
      if combinator.isSome then .combinator
      else if meta?.isSome then .array
      else if type.includes .object then .object
      else .leaf
    extensions := [] }

theorem sizeOpt_bind_get?_le (data : Option Json) (name : String) :
    sizeOpt (data.bind (get? name)) ≤ sizeOpt data := by
  rcases data with _ | v
  · simp
  · cases v with
    | obj fields =>
      have := sizeOpt_get?_le name fields
      simp only [Option.bind_some, get?, sizeOpt_some, size]
      omega
    | _ => simp [get?]

theorem sizeEntries_membersOf_lt (schema : Json) :
    sizeEntries (membersOf (some schema)) < schema.size := by
  cases schema <;>
    simp only [membersOf, Option.bind_some, fields?, Option.getD, sizeEntries, size] <;> omega

theorem get?_membersOf (schema : Json) (key : String) :
    Entries.get? key (membersOf (some schema)) = schema.get? key := by
  cases schema <;> rfl

/-- The schemas of the elements fit into the schema of their array. -/
theorem size_itemSchemas_le (schema : Json) :
    sizeItems ((schema.getItems? "prefixItems").getD []) + (itemSchema schema).size ≤
      schema.size := by
  have hlt := sizeEntries_membersOf_lt schema
  have hboth := sizeOpt_get?_add_le_weight (p := fun _ => true) (k := "prefixItems") (l := "items")
    (by decide) rfl rfl (membersOf (some schema))
  rw [weight_true, get?_membersOf, get?_membersOf] at hboth
  have hprefix : sizeItems ((schema.getItems? "prefixItems").getD []) ≤
      sizeOpt (schema.get? "prefixItems") := by
    unfold getItems?
    rcases schema.get? "prefixItems" with _ | v
    · simp [sizeItems]
    · cases v <;> simp [items?, sizeItems, size]
  have hitem : (itemSchema schema).size ≤ 1 ∨
      (itemSchema schema).size ≤ sizeOpt (schema.get? "items") := by
    unfold itemSchema
    split
    · next h => exact .inr (by simp [h])
    · exact .inl (by simp [Json.empty, size, sizeEntries])
  omega

/-- Two lists of children, and of the fields below, one after the other. -/
def join (a b : List String × List FieldNode) : List String × List FieldNode :=
  (a.1 ++ b.1, a.2 ++ b.2)

mutual

/-- The children of the field at a path, and all fields below it. -/
def below [Patterns] (pinned : SortedMap Combinator) (schema : Json) (data : Option Json)
    (path : String) : List String × List FieldNode :=
  match _hb : branches? (membersOf (some schema)) with
  | some (_, options) =>
    match _hf : fittingBranch? options data with
    | some option =>
      below pinned
        (.obj (absorb (Entries.eraseAll combinatorKeywords (membersOf (some schema))) option))
        data path
    | none => ([], [])
  | none =>
    let type := fieldType schema data
    join
      (if type.includes .object then
        match _hp : schema.getFields? "properties" with
        | some properties => belowProperties pinned (requiredNames schema) properties data path
        | none => ([], [])
      else ([], []))
      (if type.includes .array then
        match _he : data.bind items? with
        | some items =>
          belowItems pinned ((schema.getItems? "prefixItems").getD []) (itemSchema schema) items
            path 0
        | none => ([], [])
      else ([], []))
termination_by (schema.size + sizeOpt data, 0)
decreasing_by
  · have hlt := sizeEntries_membersOf_lt schema
    have := Selection.sizeEntries_absorb_option_lt _hb (List.mem_of_find?_eq_some _hf)
    simp only [size, Prod.lex_def]; omega
  · have hlt := sizeEntries_membersOf_lt schema
    have hget := sizeOpt_get?_le "properties" (membersOf (some schema))
    rw [get?_membersOf] at hget
    obtain ⟨v, hv, hfields⟩ := Option.bind_eq_some_iff.1 _hp
    cases v <;> simp only [fields?, Option.some.injEq, reduceCtorEq] at hfields
    subst hfields
    simp only [hv, sizeOpt_some, size] at hget
    simp only [Prod.lex_def]; omega
  · have hschemas := size_itemSchemas_le schema
    obtain ⟨v, hv, hitems⟩ := Option.bind_eq_some_iff.1 _he
    cases v <;> simp only [items?, Option.some.injEq, reduceCtorEq] at hitems
    subst hitems
    simp only [hv, sizeOpt_some, size, Prod.lex_def]; omega

/-- The fields of properties, each with what lies below it. -/
def belowProperties [Patterns] (pinned : SortedMap Combinator) (required : List String)
    (properties : List (String × Json)) (data : Option Json) (path : String) :
    List String × List FieldNode :=
  match properties with
  | [] => ([], [])
  | (name, schema) :: rest =>
    let childPath := Pointer.append path name
    let member := data.bind (get? name)
    let (children, found) := below pinned schema member childPath
    let child := node pinned schema member childPath .property (required.contains name) children
    join ([childPath], found ++ [child]) (belowProperties pinned required rest data path)
termination_by (sizeEntries properties + sizeOpt data, 1)
decreasing_by
  · have := sizeOpt_bind_get?_le data name
    simp only [sizeEntries, Prod.lex_def]; omega
  · have := size_pos schema
    simp only [sizeEntries, Prod.lex_def]; omega

/-- The fields of array elements, the first of which has a number. The schemas of a prefix go to
the first elements. -/
def belowItems [Patterns] (pinned : SortedMap Combinator) (schemas : List Json) (rest : Json)
    (items : List Json) (path : String) (index : Nat) : List String × List FieldNode :=
  match items with
  | [] => ([], [])
  | item :: items =>
    let childPath := Pointer.appendIndex path index
    match schemas with
    | schema :: schemas =>
      let (children, found) := below pinned schema (some item) childPath
      let child := node pinned schema (some item) childPath .prefixItem false children
      join ([childPath], found ++ [child]) (belowItems pinned schemas rest items path (index + 1))
    | [] =>
      let (children, found) := below pinned rest (some item) childPath
      let child := node pinned rest (some item) childPath .arrayItem false children
      join ([childPath], found ++ [child]) (belowItems pinned [] rest items path (index + 1))
termination_by (sizeItems schemas + rest.size + sizeItems items, 1)
decreasing_by
  all_goals
    have := size_pos rest
    have := size_pos item
    simp only [sizeItems, sizeOpt_some, Prod.lex_def]
    omega

end

/-- All fields of a form; the root comes last. -/
def fields [Patterns] (pinned : SortedMap Combinator) (schema : Json) (data : Option Json) :
    List FieldNode :=
  let (children, found) := below pinned schema data ""
  found ++ [node pinned schema data "" .root false children]

/-- The fields of a form by path. Of two fields with one path the later one counts. -/
def build [Patterns] (pinned : SortedMap Combinator) (schema : Json) (data : Option Json) :
    FieldIndex :=
  SortedMap.ofList ((fields pinned schema data).map fun node => (node.path, node))

end FieldTree
end SchemaForm
