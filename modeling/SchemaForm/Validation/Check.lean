import SchemaForm.Validation.Check.Applicator
import SchemaForm.Validation.Check.WellFormed

/-!
# Validation of a document

The validator that the command line puts in place of the `Validator` parameter. Nothing else depends
on it: enrichment and interceptor take any validator.

`issues` goes through the keywords of a schema in their order, and into other schemas where they
stand. `validator` is validation by this reading of schemas: it refuses a schema that is not well
formed, or that asks for something that is not there.
-/

namespace SchemaForm.Validation

/-- The issues of a value under a schema of a document. Going into another schema takes one step;
without steps left nothing more is found. -/
def issues (document : Json) : Nat → Check
  | steps + 1, .obj keywords, place =>
    keywords.flatMap fun entry =>
      keywordIssues (issues document steps) document keywords entry.1 entry.2 place
  | _ + 1, .bool false, place => [place.issue .falseSchema]
  | _, _, _ => []

/-- The steps that checking can need: a path of checks that ends meets no schema twice with one
part of the value, names of members included. -/
def stepsFor (document v : Json) : Nat := document.size * (v.size + 1) + 1

/-- Validation of values against a schema that stands alone. -/
def validator : Validator := fun document =>
  if Schema.isWellFormed document && usable document then
    some fun v => issues document (stepsFor document v) document ⟨"", v⟩
  else
    none

end SchemaForm.Validation
