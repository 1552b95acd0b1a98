import SchemaForm.Pipeline.Conditional
import SchemaForm.Pipeline.Dependent
import SchemaForm.Pipeline.Defaults
import SchemaForm.Pipeline.Stage
import SchemaForm.Schema.Reference

/-!
# The context of a run

What the stages hand on to each other, and the work of each stage on it.
-/

namespace SchemaForm

/-- The fields whose shape hangs on the data at each path. -/
abbrev ConditionalDeps := SortedMap SortedSet

/-- Notes one more dependency. -/
def ConditionalDeps.note (deps : ConditionalDeps) (found : Conditional.Dependency) :
    ConditionalDeps :=
  let dependents := (SortedMap.get? found.source deps).getD SortedSet.empty
  SortedMap.insert found.source (SortedSet.add found.dependent dependents) deps

/-- The state of one run. -/
structure Context where
  schema : Json
  data : Option Json
  index : FieldIndex
  conditionalDeps : ConditionalDeps
  stage : Stage
  /-- Entries that interceptors left. -/
  annotations : Fields
  selections : Selections
  /-- The branches that selections put in force. -/
  pinned : SortedMap Combinator

namespace Context

/-- The context before the first stage. -/
def start (schema : Json) (data : Option Json) : Context where
  schema
  data
  index := SortedMap.empty
  conditionalDeps := SortedMap.empty
  stage := .normalize
  annotations := []
  selections := SortedMap.empty
  pinned := SortedMap.empty

/-- The root field. -/
def root? (c : Context) : Option FieldNode := c.index.get? ""

/-- Resolves conditionals, and notes what they hang on. -/
def evaluateConditionals [Patterns] (c : Context) : Context :=
  let (schema, found) := Conditional.resolve c.schema c.data ""
  { c with schema, conditionalDeps := found.foldl ConditionalDeps.note c.conditionalDeps }

/-- Puts the selected branches in place. Without a selection nothing changes. -/
def resolveCombinators (c : Context) : Context :=
  if c.selections.isEmpty then
    c
  else
    let (schema, found) := Selection.resolve c.selections c.schema ""
    { c with
      schema
      pinned := SortedMap.ofList (found.map fun pinned => (pinned.path, pinned.combinator)) }

/-- Fills in defaults. -/
def applyDefaults (c : Context) : Context :=
  let (data, index) := Defaults.apply c.index c.data
  { c with data, index }

/-- The work of a stage. -/
def perform [Patterns] : Stage → Context → Context
  | .normalize, c => { c with schema := Schema.normalize c.schema }
  | .resolveRefs, c => { c with schema := Schema.resolveReferences c.schema }
  | .mergeAllOf, c => { c with schema := Schema.flatten c.schema }
  | .evaluateConditionals, c => c.evaluateConditionals
  | .evaluateDependents, c => { c with schema := Dependent.resolve c.schema c.data }
  | .resolveCombinators, c => c.resolveCombinators
  | .buildTree, c => { c with index := FieldTree.build c.pinned c.schema c.data }
  | .applyDefaults, c => c.applyDefaults
  | .finalize, c => c

end Context
end SchemaForm
