import SchemaForm.Json.Basic

/-!
# Validation issues

An issue says where a value breaks a schema, and why. A `Validator` is what validation is to the
rest of the library: it refuses a schema it cannot work with, and lists the issues of a value
otherwise. What it goes by is left open.
-/

namespace SchemaForm.Validation

/-- One problem of a document. -/
structure Issue where
  /-- The pointer to the value. -/
  path : String
  message : String
deriving DecidableEq

namespace Issue

/-- The issue as an object. -/
def toJson (issue : Issue) : Json :=
  .obj [("path", .str issue.path), ("message", .str issue.message)]

/-- The issue of a value in a larger document, of which the value is the part at `base`. -/
def below (base : String) (issue : Issue) : Issue := { issue with path := base ++ issue.path }

end Issue

/-- Validation as a function of the schema: `none` when the schema is unusable. Paths of issues are
relative to the value. -/
abbrev Validator := Json → Option (Json → List Issue)

end SchemaForm.Validation
