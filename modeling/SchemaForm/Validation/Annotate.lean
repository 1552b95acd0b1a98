import SchemaForm.Pipeline.Run
import SchemaForm.Validation.Cache

/-!
# Issues on fields

Two ways of putting the issues of a form on its fields: an enrichment, and an interceptor for the
last stage, which also collects the issues of all fields. Each keeps the validators of the schemas
that it met. The enrichment is asked for one field at a time and changes none itself; the
interceptor goes through the fields and changes them in place.
-/

namespace SchemaForm.Validation

/-- The key of the entries that hold issues. -/
def issuesKey : String := "validationErrors"

/-- Issues as an array of objects. -/
def issuesJson (issues : List Issue) : Json := .arr (issues.map Issue.toJson)

/-- What is put on a field with issues. -/
def issuesEntry (issues : List Issue) : Fields := [(issuesKey, issuesJson issues)]

/-- Puts the issues of a field on it, with the validators in a cache. -/
def enrichmentWith (validator : Validator) (cache : CompiledCache) : Enrichment := fun node _ =>
  (cache.check validator node).1.map issuesEntry

/-- Puts the issues of a field on it. -/
def enrichment (validator : Validator) : Enrichment := enrichmentWith validator .empty

/-- Puts the issues of a field on it and under its path, with what was found for the fields before it
and the validators kept for them. -/
def annotateField (validator : Validator) (path : String) (node : FieldNode)
    (before : Fields × CompiledCache) : FieldNode × Fields × CompiledCache :=
  let checked := before.2.check validator node
  match checked.1 with
  | some issues =>
    (Pipeline.extend (issuesEntry issues) node,
      Entries.insert path (issuesJson issues) before.1, checked.2)
  | none => (node, before.1, checked.2)

/-- Puts the issues on all fields and among the annotations of the run. -/
def annotate (validator : Validator) (cache : CompiledCache) (c : Context) :
    Context × CompiledCache :=
  let annotated := c.index.mapAccum (annotateField validator) ([], cache)
  ({ c with
      index := annotated.1
      annotations := Entries.insert issuesKey (.obj annotated.2.1) c.annotations },
    annotated.2.2)

/-- Annotates what comes out of a stage, with the validators in a cache. -/
def interceptorWith (validator : Validator) (cache : CompiledCache) : Interceptor := fun _ c =>
  .proceedThen c fun out => .finish (.ok (annotate validator cache out).1)

/-- Annotates what comes out of a stage. -/
def interceptor (validator : Validator) : Interceptor := interceptorWith validator .empty

end SchemaForm.Validation
