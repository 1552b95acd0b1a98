import SchemaForm.Pipeline.Context

/-!
# Form models

The outcome of a run: the fields by path, with the schema and data that they describe. A model is
written as one object with its index, or as the tree of its fields.
-/

namespace SchemaForm

/-- The fields of a form, and the schema and data that they describe. -/
structure FormModel where
  schema : Json
  data : Option Json
  index : FieldIndex
  conditionalDeps : ConditionalDeps
  annotations : Fields

/-- Dependencies as an object of lists. -/
def ConditionalDeps.toJson (deps : ConditionalDeps) : Json :=
  .obj <| (SortedMap.entries deps).map fun entry =>
    (entry.1, .arr ((SortedSet.toList entry.2).map .str))

namespace FormModel

/-- The model of a finished context. -/
def ofContext (c : Context) : FormModel :=
  ⟨c.schema, c.data, c.index, c.conditionalDeps, c.annotations⟩

/-- The root field; there is none if an interceptor left the tree out. -/
def root? (m : FormModel) : Option FieldNode := m.index.get? ""

/-- The field at a path. -/
def get? (m : FormModel) (path : String) : Option FieldNode := m.index.get? path

/-- The children of the field at a path, in order. -/
def children (m : FormModel) (path : String) : List FieldNode :=
  ((m.get? path).elim [] FieldNode.children).filterMap m.get?

/-- The model as one object. -/
def toJson (m : FormModel) : Json :=
  .obj <|
    [("schema", m.schema)] ++ (m.data.map fun v => ("data", v)).toList ++
    [("index", .obj (m.index.entries.map fun entry => (entry.1, entry.2.toJson))),
      ("conditionalDeps", m.conditionalDeps.toJson)] ++
    (if m.annotations.isEmpty then [] else [("meta", .obj m.annotations)])

/-- A field with its children inside, as deep as the fuel reaches. -/
def nodeJson (m : FormModel) : Nat → FieldNode → Json
  | 0, node => node.toJsonWith []
  | fuel + 1, node => node.toJsonWith ((m.children node.path).map (nodeJson m fuel))

/-- The tree of fields; null without a root. A field lies deeper than its parent, so no branch is
longer than the index. -/
def treeJson (m : FormModel) : Json :=
  match m.root? with
  | some root => nodeJson m m.index.size root
  | none => .null

end FormModel
end SchemaForm
