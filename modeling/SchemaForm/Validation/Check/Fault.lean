import SchemaForm.Json.Printer
import SchemaForm.Schema.Type

/-!
# Faults

Why a value breaks a keyword, and how that is worded. The wording names the value at hand.
-/

namespace SchemaForm.Validation

/-- Why a value breaks a keyword. -/
inductive Fault where
  /-- The schema is the truth value that accepts nothing. -/
  | falseSchema
  | wrongType (expected : List JsonType)
  | notListed (options : Json)
  | notConstant (expected : Json)
  | belowMinimum (limit : Json)
  | aboveMaximum (limit : Json)
  | notAboveMinimum (limit : Json)
  | notBelowMaximum (limit : Json)
  | notMultiple (divisor : Binary64)
  | tooShort (limit : Nat)
  | tooLong (limit : Nat)
  | noMatch (pattern : String)
  | tooFewItems (limit : Nat)
  | tooManyItems (limit : Nat)
  | repeatedItems
  | wrongContents
  | tooFewProperties (limit : Nat)
  | tooManyProperties (limit : Nat)
  | missing (key : String)
  | unexpected (keys : List String)
  /-- No branch of the keyword accepts the value. -/
  | noBranch (keyword : String)
  | severalBranches
  | excluded (schema : Json)

/-- The types in the order in which a fault lists them: by name. -/
def typesByName : List JsonType := [.array, .boolean, .integer, .null, .number, .object, .string]

/-- A count of things: `one` ends the word for a single thing, `many` for any other number. -/
def counted (n : Nat) (word one many : String) : String :=
  Number.intText n ++ " " ++ word ++ (if n = 1 then one else many)

namespace Fault

/-- The wording for one type or several ones. -/
def typeMessage (v : String) : List JsonType → String
  | [type] => v ++ " is not of type \"" ++ type.name ++ "\""
  | types =>
    let names := (typesByName.filter types.contains).map fun type => "\"" ++ type.name ++ "\""
    v ++ " is not of types " ++ ", ".intercalate names

/-- The wording for members that are not allowed. -/
def unexpectedMessage (keys : List String) : String :=
  "Additional properties are not allowed (" ++
    ", ".intercalate (keys.map fun key => "'" ++ key ++ "'") ++
    (if keys.length = 1 then " was" else " were") ++ " unexpected)"

/-- The wording of a fault for a value given as text. -/
def message (v : String) : Fault → String
  | falseSchema => "False schema does not allow " ++ v
  | wrongType types => typeMessage v types
  | notListed options => v ++ " is not one of " ++ options.text
  | notConstant expected => expected.text ++ " was expected"
  | belowMinimum limit => v ++ " is less than the minimum of " ++ limit.text
  | aboveMaximum limit => v ++ " is greater than the maximum of " ++ limit.text
  | notAboveMinimum limit => v ++ " is less than or equal to the minimum of " ++ limit.text
  | notBelowMaximum limit => v ++ " is greater than or equal to the maximum of " ++ limit.text
  | notMultiple divisor => v ++ " is not a multiple of " ++ divisor.plain
  | tooShort limit => v ++ " is shorter than " ++ counted limit "character" "" "s"
  | tooLong limit => v ++ " is longer than " ++ counted limit "character" "" "s"
  | noMatch pattern => v ++ " does not match \"" ++ pattern ++ "\""
  | tooFewItems limit => v ++ " has less than " ++ counted limit "item" "" "s"
  | tooManyItems limit => v ++ " has more than " ++ counted limit "item" "" "s"
  | repeatedItems => v ++ " has non-unique elements"
  | wrongContents => "None of " ++ v ++ " are valid under the given schema"
  | tooFewProperties limit => v ++ " has less than " ++ counted limit "propert" "y" "ies"
  | tooManyProperties limit => v ++ " has more than " ++ counted limit "propert" "y" "ies"
  | missing key => Json.quote key ++ " is a required property"
  | unexpected keys => unexpectedMessage keys
  | noBranch keyword =>
    v ++ " is not valid under any of the schemas listed in the '" ++ keyword ++ "' keyword"
  | severalBranches =>
    v ++ " is valid under more than one of the schemas listed in the 'oneOf' keyword"
  | excluded schema => schema.text ++ " is not allowed for " ++ v

end Fault

end SchemaForm.Validation
