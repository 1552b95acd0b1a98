import SchemaForm.Json.Printer
import SchemaForm.Pipeline.Intercept
import SchemaForm.Pipeline.Model

/-!
# Running the pipeline

A configuration names the interceptors of each stage and the enrichments of the finished model.
`Pipeline.run` takes a schema and data to a form model through all stages; `Pipeline.prepare` stops
behind the stages that read the schema alone, and `Pipeline.runPrepared` goes on from there.
-/

namespace SchemaForm

/-- Entries that an enrichment adds to a field, from the field and the whole context. -/
abbrev Enrichment := FieldNode → Context → Option Fields

/-- How models are built. -/
structure Config where
  /-- The interceptors in the order in which they were added. -/
  interceptors : List (Stage × Interceptor)
  enrichments : List Enrichment
  /-- Keep what the static stages made of a schema. -/
  cacheStatic : Bool

namespace Config

/-- Nothing but the stages. -/
def default : Config := ⟨[], [], true⟩

/-- The interceptors of a stage, outermost first. -/
def chain (config : Config) (stage : Stage) : List Interceptor :=
  (config.interceptors.filter fun entry => entry.1 == stage).map Prod.snd

/-- The number of interceptors of each stage that has any, by name. -/
def counts (config : Config) : SortedMap Nat :=
  SortedMap.ofList <| config.interceptors.map fun entry =>
    (entry.1.name, (config.chain entry.1).length)

/-- A description for people. -/
def describe (config : Config) : String :=
  let counts := config.counts.entries.map fun entry =>
    Json.quote entry.1 ++ ": " ++ toString entry.2
  "PipelineConfig \x7b middleware: \x7b" ++ ", ".intercalate counts ++ "\x7d, enrichments: " ++
    toString config.enrichments.length ++ ", cache_static_stages: " ++
    (if config.cacheStatic then "true" else "false") ++ " \x7d"

end Config

/-- A schema behind the static stages. -/
structure Prepared where
  schema : Json
  annotations : Fields

namespace Pipeline

/-- Runs stages in order, each within its chain of interceptors. -/
def runStages [Patterns] (config : Config) : List Stage → Context → Traced Context
  | [], c => .ok c
  | stage :: rest, c =>
    (Interceptor.runChain stage (config.chain stage) { c with stage }).bind (runStages config rest)

/-- Adds entries to the extensions of a field; an entry with the same key is replaced. -/
def extend (entries : Fields) (node : FieldNode) : FieldNode :=
  { node with
    extensions := entries.foldl (fun acc entry => Entries.insert entry.1 entry.2 acc)
      node.extensions }

/-- Applies one enrichment. It sees the context as it was before any of its own entries. -/
def enrich (enrichment : Enrichment) (c : Context) : Context :=
  let updates := c.index.values.filterMap fun node =>
    (enrichment node c).map fun entries => (node.path, entries)
  { c with
    index := updates.foldl (fun index update => index.modify update.1 (extend update.2)) c.index }

/-- Applies the enrichments in order and takes the model. -/
def finish (config : Config) (c : Context) : FormModel :=
  .ofContext (config.enrichments.foldl (fun c enrichment => enrich enrichment c) c)

/-- The model of a schema and data. -/
def run [Patterns] (config : Config) (schema : Json) (data : Option Json)
    (selections : Selections) : Traced FormModel :=
  ((runStages config Stage.static { Context.start schema data with selections }).bind
    (runStages config Stage.dynamic)).map (finish config)

/-- The schema behind the static stages, which see no data. -/
def prepare [Patterns] (config : Config) (schema : Json) : Traced Prepared :=
  (runStages config Stage.static (Context.start schema none)).map fun c => ⟨c.schema, c.annotations⟩

/-- The model of a prepared schema and data. -/
def runPrepared [Patterns] (config : Config) (prepared : Prepared) (data : Option Json)
    (selections : Selections) : Traced FormModel :=
  (runStages config Stage.dynamic
    { Context.start prepared.schema data with
      annotations := prepared.annotations
      selections }).map (finish config)

end Pipeline
end SchemaForm
