import SchemaForm.Pipeline.Tree

/-!
# Defaults

Fills absent data from the defaults of the fields, from the root down the children of each field,
and gives every field the value that results at its path. A field whose type includes objects has
an object for its children, whatever its data were before; elements are filled in place.
-/

namespace SchemaForm.Defaults

open Json

/-- A result with the values that the fields on the way take, in the order in which they take
them. -/
structure Seeded (α : Type) where
  result : α
  values : List (String × Option Json)

/-- Seeds the members that children name, in order. A member that gets no value is not added. -/
def seedMembers (seed : String → Option Json → Seeded (Option Json)) (children : List String)
    (fields : Fields) : Seeded Fields :=
  children.foldl (fun acc child =>
    let key := (Pointer.lastSegment? child).getD ""
    let found := seed child (Entries.get? key acc.result)
    ⟨found.result.elim acc.result fun v => Entries.insert key v acc.result,
      acc.values ++ found.values⟩) ⟨fields, []⟩

/-- Seeds elements, each by the child at its position. -/
def seedElements (seed : String → Option Json → Seeded (Option Json)) :
    List String → List Json → Seeded (List Json)
  | child :: children, item :: items =>
    let found := seed child (some item)
    let rest := seedElements seed children items
    ⟨found.result.getD .null :: rest.result, found.values ++ rest.values⟩
  | _, items => ⟨items, []⟩

/-- The data at a path with defaults filled in, as deep as the fuel reaches. -/
def seedAt (index : FieldIndex) : Nat → String → Option Json → Seeded (Option Json)
  | 0, _, data => ⟨data, []⟩
  | fuel + 1, path, data =>
    match index.get? path with
    | none => ⟨data, []⟩
    | some node =>
      let given := data.orElse fun _ => node.schema.get? "default"
      let members : Seeded (Option Json) :=
        if node.type.includes .object && !node.children.isEmpty then
          let found := seedMembers (seedAt index fuel) node.children (Schema.membersOf given)
          ⟨some (.obj found.result), found.values⟩
        else
          ⟨given, []⟩
      let elements : Seeded (Option Json) :=
        if node.type.includes .array && !node.children.isEmpty then
          match members.result with
          | some (.arr items) =>
            let found := seedElements (seedAt index fuel) node.children items
            ⟨some (.arr found.result), found.values⟩
          | other => ⟨other, []⟩
        else
          ⟨members.result, []⟩
      ⟨elements.result, members.values ++ elements.values ++ [(path, elements.result)]⟩

/-- The data with all defaults filled in. A field lies deeper than its parent, so no descent is
longer than the index. -/
def seed (index : FieldIndex) (data : Option Json) : Seeded (Option Json) :=
  seedAt index index.size "" data

/-- Gives fields their values. -/
def assign (values : List (String × Option Json)) (index : FieldIndex) : FieldIndex :=
  values.foldl (fun index entry => index.modify entry.1 fun node => { node with value := entry.2 })
    index

/-- The data and the fields with defaults filled in; nothing happens without a root field. -/
def apply (index : FieldIndex) (data : Option Json) : Option Json × FieldIndex :=
  if index.contains "" then
    let seeded := seed index data
    (seeded.result, assign seeded.values index)
  else
    (data, index)

end SchemaForm.Defaults
