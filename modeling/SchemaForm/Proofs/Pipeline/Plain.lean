import SchemaForm.Pipeline.Run

/-!
# The pipeline without interceptors

With the default configuration no stage fails and none is wrapped, so a run is one composition of
the work of its stages. `Pipeline.plainModel` writes it out for a schema behind the static stages.
-/

namespace SchemaForm

@[simp] theorem Traced.ok_bind {α β : Type} (a : α) (f : α → Traced β) :
    (Traced.ok a).bind f = f a := rfl

/-- No interceptor stands around a stage that reads the schema alone. -/
def Config.StaticBare (config : Config) : Prop :=
  ∀ stage ∈ Stage.static, config.chain stage = []

theorem Config.staticBare_default : Config.default.StaticBare := fun _ _ => rfl

namespace Pipeline

/-- The schema that the selections meet: conditionals and dependents are resolved for the data. -/
def situated [Patterns] (prepared : Json) (data : Option Json) : Json :=
  Dependent.resolve (Conditional.resolve prepared data "").1 data

/-- The dependencies that resolving the conditionals finds. -/
def dependencies [Patterns] (prepared : Json) (data : Option Json) : ConditionalDeps :=
  (Conditional.resolve prepared data "").2.foldl ConditionalDeps.note SortedMap.empty

/-- The schema with the selected branches in place. -/
def chosenSchema (selections : Selections) (schema : Json) : Json :=
  if selections.isEmpty then schema else (Selection.resolve selections schema "").1

/-- The combinators that the selections pin, by path. -/
def pinnedCombinators (selections : Selections) (schema : Json) : SortedMap Combinator :=
  if selections.isEmpty then
    SortedMap.empty
  else
    SortedMap.ofList
      ((Selection.resolve selections schema "").2.map fun found => (found.path, found.combinator))

/-- The fields before defaults are filled in. -/
def plainIndex [Patterns] (prepared : Json) (data : Option Json) (selections : Selections) :
    FieldIndex :=
  FieldTree.build (pinnedCombinators selections (situated prepared data))
    (chosenSchema selections (situated prepared data)) data

/-- The model of a prepared schema and data. -/
def plainModel [Patterns] (prepared : Json) (data : Option Json) (selections : Selections) :
    FormModel where
  schema := chosenSchema selections (situated prepared data)
  data := (Defaults.apply (plainIndex prepared data selections) data).1
  index := (Defaults.apply (plainIndex prepared data selections) data).2
  conditionalDeps := dependencies prepared data
  annotations := []

/-- A schema in current spelling, without references and without parts to merge, is its own
preparation. -/
theorem prepare_eq_self {schema : Json} (hnormal : Schema.normalize schema = schema)
    (hreferences : Schema.references schema = [])
    (hinlined : Schema.inlineWith (fun _ => none) schema = schema)
    (hflat : Schema.flatten schema = schema) : Schema.prepare schema = schema := by
  have hresolved : Schema.resolveReferences schema = schema := by
    rw [Schema.resolveReferences, hreferences, Schema.expand]
    simpa using hinlined
  rw [Schema.prepare, hnormal, hresolved, hflat]

theorem prepare_empty : Schema.prepare .empty = .empty := prepare_eq_self rfl rfl rfl rfl

/-- Stages without interceptors do their work one after the other, and none fails. -/
theorem runStages_of_chain_nil [Patterns] {config : Config} {stages : List Stage}
    (h : ∀ stage ∈ stages, config.chain stage = []) (c : Context) :
    runStages config stages c =
      .ok (stages.foldl (fun c stage => { c with stage }.perform stage) c) := by
  induction stages generalizing c with
  | nil => rfl
  | cons stage rest ih =>
    have hrest := ih fun s hs => h s (List.mem_cons_of_mem stage hs)
    rw [runStages, h stage List.mem_cons_self, Interceptor.runChain, Traced.ok_bind, hrest]
    rfl

theorem runStages_default [Patterns] (stages : List Stage) (c : Context) :
    runStages .default stages c =
      .ok (stages.foldl (fun c stage => { c with stage }.perform stage) c) :=
  runStages_of_chain_nil (fun _ _ => rfl) c

/-- Interceptors of later stages do not touch the preparation of a schema. -/
theorem prepare_of_staticBare [Patterns] {config : Config} (h : config.StaticBare) (schema : Json) :
    prepare config schema = .ok ⟨Schema.prepare schema, []⟩ := by
  rw [prepare, runStages_of_chain_nil h]
  rfl

/-- Without interceptors around the static stages a run is one on the prepared schema. -/
theorem run_of_staticBare [Patterns] {config : Config} (h : config.StaticBare) (schema : Json)
    (data : Option Json) (selections : Selections) :
    run config schema data selections =
      runPrepared config ⟨Schema.prepare schema, []⟩ data selections := by
  rw [run, runStages_of_chain_nil h, Traced.ok_bind]
  rfl

theorem runPrepared_default [Patterns] (schema : Json) (data : Option Json)
    (selections : Selections) : runPrepared .default ⟨schema, []⟩ data selections =
      .ok (plainModel schema data selections) := by
  rw [runPrepared, runStages_default]
  show Traced.ok (finish .default _) = _
  congr 1
  cases h : selections.isEmpty with
  | true =>
    simp only [Stage.dynamic, List.foldl_cons, List.foldl_nil, Context.perform,
      Context.evaluateConditionals, Context.resolveCombinators, Context.applyDefaults,
      Context.start, finish, Config.default, FormModel.ofContext, plainModel, plainIndex,
      chosenSchema, pinnedCombinators, situated, dependencies, h, if_true]
  | false =>
    simp only [Stage.dynamic, List.foldl_cons, List.foldl_nil, Context.perform,
      Context.evaluateConditionals, Context.resolveCombinators, Context.applyDefaults,
      Context.start, finish, Config.default, FormModel.ofContext, plainModel, plainIndex,
      chosenSchema, pinnedCombinators, situated, dependencies, h, Bool.false_eq_true, if_false]

theorem run_default [Patterns] (schema : Json) (data : Option Json) (selections : Selections) :
    run .default schema data selections =
      .ok (plainModel (Schema.prepare schema) data selections) := by
  rw [run_of_staticBare Config.staticBare_default, runPrepared_default]

/-- The model of a run, with the schema prepared. -/
theorem eq_plainModel_of_run [Patterns] {schema prepared : Json} {data : Option Json}
    {selections : Selections} {m : FormModel} (hprepared : Schema.prepare schema = prepared)
    (h : run .default schema data selections = .ok m) :
    m = plainModel prepared data selections := by
  rw [run_default, hprepared] at h
  exact (Except.ok.inj (congrArg Traced.result h)).symm

end Pipeline
end SchemaForm
