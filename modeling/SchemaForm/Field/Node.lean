import SchemaForm.Pointer
import SchemaForm.Field.Type
import SchemaForm.Field.Constraints
import SchemaForm.Field.Combinator

/-!
# Field nodes

A node describes the field at one data path: its schema, its type and value, and the paths of its
children.
-/

namespace SchemaForm

/-- The place that a field has in its parent. -/
inductive Origin where
  | root
  | property
  | arrayItem
  | prefixItem
deriving DecidableEq

/-- The name of an origin. -/
def Origin.name : Origin → String
  | root => "root"
  | property => "property"
  | arrayItem => "arrayItem"
  | prefixItem => "prefixItem"

/-- The shape of a field. -/
inductive FieldKind where
  | leaf
  | object
  | array
  | combinator
deriving DecidableEq

/-- The name of a shape. -/
def FieldKind.name : FieldKind → String
  | leaf => "leaf"
  | object => "object"
  | array => "array"
  | combinator => "combinator"

/-- What can be done with the elements of an array field. -/
structure ArrayMeta where
  itemSchema : Json
  prefixItems : Option (List Json)
  canAdd : Bool
  canRemove : Bool
  canReorder : Bool

/-- The permissions as an object. -/
def ArrayMeta.toJson (m : ArrayMeta) : Json :=
  .obj <|
    [("itemSchema", m.itemSchema)] ++
    (m.prefixItems.map fun items => ("prefixItems", Json.arr items)).toList ++
    [("canAdd", .bool m.canAdd), ("canRemove", .bool m.canRemove),
      ("canReorder", .bool m.canReorder)]

/-- One field of a form. -/
structure FieldNode where
  path : String
  schema : Json
  type : FieldType
  /-- The data at the path; `none` is absent. -/
  value : Option Json
  /-- The paths of the children, each the path of this node with one more segment. -/
  children : List String
  required : Bool
  readOnly : Bool
  deprecated : Bool
  active : Bool
  constraints : Constraints
  combinator : Option Combinator
  origin : Origin
  arrayMeta : Option ArrayMeta
  kind : FieldKind
  /-- Entries that enrichments and interceptors attached. -/
  extensions : Fields

namespace FieldNode

/-- The last segment of the path; empty for the root. -/
def name (node : FieldNode) : String := (Pointer.lastSegment? node.path).getD ""

/-- The title of the schema, or else the name. -/
def label (node : FieldNode) : String :=
  ((node.schema.get? "title").bind Json.str?).getD node.name

/-- The description of the schema. -/
def description? (node : FieldNode) : Option String :=
  (node.schema.get? "description").bind Json.str?

/-- The type is one of the alternatives of the field. -/
def hasType (node : FieldNode) (type : JsonType) : Bool := node.type.includes type

/-- The field has options to choose from. -/
def hasOptions (node : FieldNode) : Bool :=
  node.constraints.options.any fun options => !options.isEmpty

/-- The branch in force. -/
def activeBranch? (node : FieldNode) : Option Nat := node.combinator.bind Combinator.active

/-- The node as an object, with given children. Absent parts are left out. -/
def toJsonWith (children : List Json) (node : FieldNode) : Json :=
  .obj <|
    [("path", .str node.path), ("schema", node.schema), ("type", node.type.toJson)] ++
    (node.value.map fun v => ("value", v)).toList ++
    [("children", .arr children), ("required", .bool node.required),
      ("readOnly", .bool node.readOnly), ("deprecated", .bool node.deprecated),
      ("active", .bool node.active), ("constraints", node.constraints.toJson)] ++
    (node.combinator.map fun c => ("combinator", c.toJson)).toList ++
    [("origin", .str node.origin.name)] ++
    (node.arrayMeta.map fun m => ("arrayMeta", m.toJson)).toList ++
    [("kind", .str node.kind.name)] ++
    (if node.extensions.isEmpty then [] else [("extensions", .obj node.extensions)])

/-- The node as an object that names its children. -/
def toJson (node : FieldNode) : Json := node.toJsonWith (node.children.map .str)

end FieldNode
end SchemaForm
