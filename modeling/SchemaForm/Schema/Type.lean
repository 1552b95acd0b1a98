import SchemaForm.Json.Basic

/-!
# Types

The vocabulary of the `type` keyword, and which values each name admits. A float without a
fractional part is an integer too.
-/

namespace SchemaForm

/-- A name in a `type` keyword. -/
inductive JsonType where
  | string
  | number
  | integer
  | boolean
  | object
  | array
  | null
deriving DecidableEq

namespace JsonType

/-- All types, in the order in which they are listed. -/
def all : List JsonType := [.string, .number, .integer, .boolean, .object, .array, .null]

/-- The name of a type. -/
def name : JsonType → String
  | string => "string"
  | number => "number"
  | integer => "integer"
  | boolean => "boolean"
  | object => "object"
  | array => "array"
  | null => "null"

/-- The type with a name. -/
def ofName? (name : String) : Option JsonType := all.find? (·.name == name)

/-- The type of a value. A number is a `number`, never an `integer`. -/
def of : Json → JsonType
  | .null => null
  | .bool _ => boolean
  | .num _ => number
  | .str _ => string
  | .arr _ => array
  | .obj _ => object

/-- The value is an instance of the type. -/
def admits : JsonType → Json → Bool
  | integer, .num n => n.isWhole
  | type, v => type == of v

end JsonType

namespace Schema

/-- The types that the value of a `type` keyword declares: a name or a list of names, of which
unknown ones are skipped. -/
def typesOf? : Json → Option (List JsonType)
  | .str name => some (JsonType.ofName? name).toList
  | .arr names => some (names.filterMap fun name => name.str?.bind JsonType.ofName?)
  | _ => none

/-- The types that a schema declares. -/
def types? (schema : Json) : Option (List JsonType) := (schema.get? "type").bind typesOf?

end Schema
end SchemaForm
