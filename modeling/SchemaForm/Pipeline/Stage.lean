/-!
# Stages

The stages that turn a schema and data into a form model, in their order. The first three read the
schema alone.
-/

namespace SchemaForm

/-- A stage of the pipeline. -/
inductive Stage where
  | normalize
  | resolveRefs
  | mergeAllOf
  | evaluateConditionals
  | evaluateDependents
  | resolveCombinators
  | buildTree
  | applyDefaults
  | finalize
deriving DecidableEq

namespace Stage

/-- The stages that depend on the schema alone, in order. -/
def static : List Stage := [normalize, resolveRefs, mergeAllOf]

/-- The stages that run again whenever data change, in order. -/
def dynamic : List Stage :=
  [evaluateConditionals, evaluateDependents, resolveCombinators, buildTree, applyDefaults, finalize]

/-- All stages in order. -/
def all : List Stage := static ++ dynamic

/-- The name of a stage in messages. -/
def name : Stage → String
  | normalize => "NORMALIZE"
  | resolveRefs => "RESOLVE_REFS"
  | mergeAllOf => "MERGE_ALLOF"
  | evaluateConditionals => "EVALUATE_CONDITIONALS"
  | evaluateDependents => "EVALUATE_DEPENDENTS"
  | resolveCombinators => "RESOLVE_COMBINATORS"
  | buildTree => "BUILD_TREE"
  | applyDefaults => "APPLY_DEFAULTS"
  | finalize => "FINALIZE"

/-- The name of a stage in documents, which sets every word apart. -/
def key : Stage → String
  | mergeAllOf => "MERGE_ALL_OF"
  | stage => stage.name

/-- The stage with a name. -/
def ofName? (name : String) : Option Stage := all.find? (·.name == name)

/-- The stage with a key. -/
def ofKey? (key : String) : Option Stage := all.find? (·.key == key)

/-- The stage depends on the schema alone. -/
def isStatic (stage : Stage) : Bool := static.contains stage

end Stage
end SchemaForm
