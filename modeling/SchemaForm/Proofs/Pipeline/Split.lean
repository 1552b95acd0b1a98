import SchemaForm.Proofs.Pipeline.Seeding
import SchemaForm.Proofs.Pipeline.Situated
import SchemaForm.Regex.Engine

/-!
# Preparing first

A preparation sees no data and no selections, and hands on a schema and annotations alone. So the
static stages of a preparation and of a whole run go side by side, on contexts that agree but for
what the preparation does not have, as long as no interceptor around them looks at it. Main
statement: a run on the preparation is then the whole run, errors and notes included, if the static
stages leave everything but schema and annotations as it was.
-/

namespace SchemaForm

variable {given : Selections} {c d : Context}

/-! ### Contexts that agree -/

/-- The contexts agree but for the data, and for the selections if some are given. -/
structure Context.Alike (given : Selections) (c d : Context) : Prop where
  schema : c.schema = d.schema
  index : c.index = d.index
  conditionalDeps : c.conditionalDeps = d.conditionalDeps
  stage : c.stage = d.stage
  annotations : c.annotations = d.annotations
  pinned : c.pinned = d.pinned
  selections : given = SortedMap.empty → c.selections = d.selections

/-- Two outcomes are one error, or contexts that agree. -/
inductive OutcomeAlike (given : Selections) :
    Except PipelineError Context → Except PipelineError Context → Prop where
  | ok {c d : Context} (h : c.Alike given d) : OutcomeAlike given (.ok c) (.ok d)
  | error (e : PipelineError) : OutcomeAlike given (.error e) (.error e)

/-- Two interceptors do the same, as far as contexts that agree tell. -/
inductive Intercept.Alike (given : Selections) : Intercept → Intercept → Prop where
  | finish {r s : Except PipelineError Context} (h : OutcomeAlike given r s) :
      Alike given (.finish r) (.finish s)
  | proceed {c d : Context} {resume other : Except PipelineError Context → Intercept}
      (h : c.Alike given d)
      (hresume : ∀ r s, OutcomeAlike given r s → Alike given (resume r) (other s)) :
      Alike given (.proceed c resume) (.proceed d other)
  | note {text : String} {rest other : Intercept} (h : Alike given rest other) :
      Alike given (.note text rest) (.note text other)

/-- What the interceptor does hangs neither on the data nor on given selections. -/
def Interceptor.Blind (given : Selections) (interceptor : Interceptor) : Prop :=
  ∀ stage c d, c.Alike given d → (interceptor stage c).Alike given (interceptor stage d)

/-- No interceptor around a static stage looks at the data or at given selections. -/
def Config.StaticBlind (config : Config) (given : Selections) : Prop :=
  ∀ stage ∈ Stage.static, ∀ interceptor ∈ config.chain stage, interceptor.Blind given

/-- The traces agree, with the same notes. -/
structure TraceAlike (given : Selections) (t u : Traced Context) : Prop where
  result : OutcomeAlike given t.result u.result
  notes : t.notes = u.notes

/-! ### Runs side by side -/

/-- A static stage works on the schema alone. -/
theorem Context.Alike.perform [Patterns] (h : c.Alike given d) {stage : Stage}
    (hstage : stage ∈ Stage.static) : (c.perform stage).Alike given (d.perform stage) := by
  have hschema := h.schema
  simp only [Stage.static, List.mem_cons, List.not_mem_nil, or_false] at hstage
  rcases hstage with rfl | rfl | rfl
  · exact { h with schema := congrArg Schema.normalize hschema }
  · exact { h with schema := congrArg Schema.resolveReferences hschema }
  · exact { h with schema := congrArg Schema.flatten hschema }

theorem TraceAlike.bind {t u : Traced Context} (h : TraceAlike given t u)
    {f g : Context → Traced Context} (hfg : ∀ c d, c.Alike given d → TraceAlike given (f c) (g d)) :
    TraceAlike given (t.bind f) (u.bind g) := by
  obtain ⟨result, notes⟩ := t
  obtain ⟨result', notes'⟩ := u
  obtain ⟨hresult, hnotes⟩ := h
  dsimp only at hresult hnotes
  subst hnotes
  cases hresult with
  | error e => exact ⟨.error e, rfl⟩
  | @ok c d h =>
    obtain ⟨hnext, hnextNotes⟩ := hfg c d h
    refine ⟨hnext, ?_⟩
    show notes ++ (f c).notes = notes ++ (g d).notes
    rw [hnextNotes]

theorem Intercept.Alike.run {i j : Intercept} (h : i.Alike given j) (stage : Stage)
    {next other : Context → Traced Context}
    (hnext : ∀ c d, c.Alike given d → TraceAlike given (next c) (other d)) (asked : Bool) :
    TraceAlike given (i.run stage next asked) (j.run stage other asked) := by
  induction h generalizing asked with
  | finish h => exact ⟨h, rfl⟩
  | note _ ih =>
    obtain ⟨hresult, hnotes⟩ := ih asked
    refine ⟨hresult, ?_⟩
    rw [Intercept.run, Intercept.run, hnotes]
  | @proceed c d resume resume' h _ ih =>
    cases asked with
    | true =>
      -- both are refused, and go on from the same error
      exact ih _ _ (.error (.nextCalledMultipleTimes stage)) true
    | false =>
      obtain ⟨hresult, hnotes⟩ := hnext c d h
      obtain ⟨houter, houterNotes⟩ := ih _ _ hresult true
      refine ⟨houter, ?_⟩
      show (next c).notes ++ _ = (other d).notes ++ _
      rw [hnotes, houterNotes]

theorem alike_runChain [Patterns] {stage : Stage} (hstage : stage ∈ Stage.static)
    {chain : List Interceptor}
    (hblind : ∀ interceptor ∈ chain, interceptor.Blind given) (h : c.Alike given d) :
    TraceAlike given (Interceptor.runChain stage chain c) (Interceptor.runChain stage chain d) := by
  induction chain generalizing c d with
  | nil => exact ⟨.ok (h.perform hstage), rfl⟩
  | cons interceptor rest ih =>
    have hfirst := hblind interceptor List.mem_cons_self stage c d h
    refine hfirst.run stage ?_ false
    intro c d h
    exact ih (fun interceptor hrest => hblind interceptor (List.mem_cons_of_mem _ hrest)) h

namespace Pipeline

open Defaults FieldTree Json

variable {config : Config}

theorem alike_runStages [Patterns] (hblind : config.StaticBlind given) {stages : List Stage}
    (hstatic : ∀ stage ∈ stages, stage ∈ Stage.static) (h : c.Alike given d) :
    TraceAlike given (runStages config stages c) (runStages config stages d) := by
  induction stages generalizing c d with
  | nil => exact ⟨.ok h, rfl⟩
  | cons stage rest ih =>
    have hstage := hstatic stage List.mem_cons_self
    have hset : ({ c with stage } : Context).Alike given { d with stage } := { h with stage := rfl }
    refine (alike_runChain hstage (hblind stage hstage) hset).bind ?_
    intro c d h
    exact ih (fun stage hrest => hstatic stage (List.mem_cons_of_mem _ hrest)) h

/-! ### The run on a preparation -/

/-- What a preparation hands on of a context: its schema and annotations, with the data and the
selections of the run. -/
def handedOn (data : Option Json) (selections : Selections) (c : Context) : Context :=
  { Context.start c.schema data with annotations := c.annotations, selections }

theorem alike_start (schema : Json) (data : Option Json) (selections : Selections) :
    ({ Context.start schema data with selections } : Context).Alike selections
      (Context.start schema none) where
  schema := rfl
  index := rfl
  conditionalDeps := rfl
  stage := rfl
  annotations := rfl
  pinned := rfl
  selections := id

/-- A run on the preparation goes on from what the static stages of the whole run hand on. -/
theorem prepare_bind_runPrepared_eq [Patterns] {schema : Json} {data : Option Json}
    {selections : Selections} (hblind : config.StaticBlind selections) :
    ((prepare config schema).bind fun prepared => runPrepared config prepared data selections) =
      ((runStages config Stage.static { Context.start schema data with selections }).bind fun c =>
        runStages config Stage.dynamic (handedOn data selections c)).map (finish config) := by
  have halike := alike_runStages hblind (fun _ h => h) (alike_start schema data selections)
  rw [prepare]
  generalize runStages config Stage.static { Context.start schema data with selections } = whole
    at halike
  generalize runStages config Stage.static (Context.start schema none) = early at halike
  obtain ⟨result, notes⟩ := whole
  obtain ⟨result', notes'⟩ := early
  obtain ⟨hresult, hnotes⟩ := halike
  dsimp only at hresult hnotes
  subst hnotes
  cases hresult with
  | error e => rfl
  | @ok c d h =>
    have hhanded : handedOn data selections d = handedOn data selections c := by
      rw [handedOn, handedOn, h.schema, h.annotations]
    show (Traced.bind ⟨.ok d, notes⟩ fun d =>
      runStages config Stage.dynamic (handedOn data selections d)).map (finish config) = _
    rw [Traced.bind, Traced.bind]
    dsimp only
    rw [hhanded]

/-- Nothing but the schema and the annotations has been written since the start. -/
structure KeepsRest (data : Option Json) (selections : Selections) (c : Context) : Prop where
  data : c.data = data
  selections : c.selections = selections
  index : c.index = SortedMap.empty
  conditionalDeps : c.conditionalDeps = SortedMap.empty
  pinned : c.pinned = SortedMap.empty

/-- Then everything is handed on but the stage, which the dynamic stages set before anything reads
it. -/
theorem KeepsRest.runStages_handedOn [Patterns] {data : Option Json} {selections : Selections}
    (h : KeepsRest data selections c) (config : Config) :
    runStages config Stage.dynamic (handedOn data selections c) =
      runStages config Stage.dynamic c := by
  obtain ⟨schema, data', index, conditionalDeps, stage, annotations, selections', pinned⟩ := c
  obtain ⟨rfl, rfl, rfl, rfl, rfl⟩ := h
  rfl

/-- The run on a preparation is the whole run, if the interceptors around the static stages are
blind to what the preparation does not have and write nothing but what it hands on. -/
theorem prepare_bind_runPrepared [Patterns] {schema : Json} {data : Option Json}
    {selections : Selections} (hblind : config.StaticBlind selections)
    (hkeeps : ∀ c, (runStages config Stage.static
        { Context.start schema data with selections }).result = .ok c →
      KeepsRest data selections c) :
    ((prepare config schema).bind fun prepared => runPrepared config prepared data selections) =
      run config schema data selections := by
  rw [prepare_bind_runPrepared_eq hblind, run]
  generalize runStages config Stage.static { Context.start schema data with selections } = whole
    at hkeeps
  obtain ⟨result, notes⟩ := whole
  cases result with
  | error e => rfl
  | ok c =>
    rw [Traced.bind, Traced.bind]
    dsimp only
    rw [(hkeeps c rfl).runStages_handedOn]

/-! ### Interceptors that write what is handed on -/

/-- Leaves an entry before the work of the stage. -/
def stamping : Interceptor := fun stage c =>
  .pass { c with annotations := Entries.insert stage.name (.bool true) c.annotations }

/-- Gives the schema a title after the work of the stage, and leaves a note. -/
def titling : Interceptor := fun _ c =>
  .proceedThen c fun c =>
    .note "titled" (.finish (.ok { c with
      schema := Schema.merge c.schema (.obj [("title", .str "T")]) }))

/-- Leaves a note of whether there are data. -/
def reporting : Interceptor := fun _ c =>
  .note (if c.data.isSome then "data" else "no data") (.pass c)

/-- Two interceptors around static stages, and one that looks at the data behind them. -/
def annotating : Config :=
  ⟨[(.normalize, stamping), (.mergeAllOf, titling), (.finalize, reporting)], [], true⟩

theorem alike_pass (h : c.Alike given d) : (Intercept.pass c).Alike given (.pass d) :=
  .proceed h fun _ _ hresult => .finish hresult

theorem blind_stamping (given : Selections) : stamping.Blind given := by
  intro stage c d h
  have hannotations := h.annotations
  exact alike_pass { h with annotations := congrArg (Entries.insert _ _) hannotations }

theorem blind_titling (given : Selections) : titling.Blind given := by
  intro stage c d h
  refine .proceed h ?_
  intro r s hresult
  cases hresult with
  | error e => exact .finish (.error e)
  | @ok c d h =>
    have hschema := h.schema
    exact .note (.finish (.ok { h with schema := congrArg (Schema.merge · _) hschema }))

theorem staticBlind_annotating (given : Selections) : annotating.StaticBlind given := by
  intro stage hstage interceptor hmem
  simp only [Stage.static, List.mem_cons, List.not_mem_nil, or_false] at hstage
  rcases hstage with rfl | rfl | rfl
  · obtain rfl := List.mem_singleton.1 hmem
    exact blind_stamping given
  · cases hmem
  · obtain rfl := List.mem_singleton.1 hmem
    exact blind_titling given

theorem prepare_bind_runPrepared_annotating :
    let schema : Json := .obj [("oneOf", .arr [.empty, .obj [("default", .int 1)]])]
    let selections : Selections := SortedMap.empty.insert "" 1
    ((prepare annotating schema).bind fun prepared =>
        runPrepared annotating prepared (some .null) selections) =
      run annotating schema (some .null) selections := by
  intro schema selections
  refine prepare_bind_runPrepared (staticBlind_annotating selections) ?_
  intro c hc
  cases hc
  exact ⟨rfl, rfl, rfl, rfl, rfl⟩

/-! ### An interceptor that writes what is not handed on -/

/-- Takes the data away, whatever they are. -/
def dropping : Interceptor := fun _ c => .pass { c with data := none }

/-- The data are taken away before the first stage. -/
def dataless : Config := ⟨[(.normalize, dropping)], [], true⟩

theorem staticBlind_dataless (given : Selections) : dataless.StaticBlind given := by
  intro stage hstage interceptor hmem
  simp only [Stage.static, List.mem_cons, List.not_mem_nil, or_false] at hstage
  rcases hstage with rfl | rfl | rfl
  · obtain rfl := List.mem_singleton.1 hmem
    intro stage c d h
    exact alike_pass { h with }
  · cases hmem
  · cases hmem

theorem prepare_dataless [Patterns] (schema : Json) :
    prepare dataless schema = .ok ⟨Schema.prepare schema, []⟩ := rfl

theorem runPrepared_dataless [Patterns] (schema : Json) (data : Option Json)
    (selections : Selections) : runPrepared dataless ⟨schema, []⟩ data selections =
      .ok (plainModel schema data selections) := by
  have hbare : ∀ stage ∈ Stage.dynamic, dataless.chain stage = [] := by decide
  rw [← runPrepared_default, runPrepared, runPrepared, runStages_of_chain_nil hbare,
    runStages_default]
  rfl

theorem run_dataless [Patterns] (schema : Json) (data : Option Json) (selections : Selections) :
    run dataless schema data selections =
      .ok (plainModel (Schema.prepare schema) none selections) := by
  rw [← runPrepared_dataless]
  rfl

/-- A form of which nothing is known shows the data given. -/
theorem data_plainModel_empty [Patterns] {data : Option Json} (h : data.bind items? = none) :
    (plainModel .empty data .empty).data = data := by
  have hroot := get?_plainIndex_of_leaf (situated_empty data) rfl rfl h
  have hmembers : servesMembers (node .empty .empty data "" .root false []) = false :=
    Bool.and_false _
  have helements : servedElements? (node .empty .empty data "" .root false []) data = none := by
    rw [servedElements?]
    exact if_neg (by simp [node])
  rw [data_plainModel, fill_of_some (nested_plainIndex _ _ _) hroot,
    seedField_of_kept hmembers helements]
  cases data <;> rfl

/-- The preparation does not know that an interceptor has taken the data away. -/
theorem preparation_keeps_dropped_data :
    dataless.StaticBlind .empty ∧
      ∃ m whole, ((prepare dataless .empty).bind fun prepared =>
          runPrepared dataless prepared (some (int 1)) .empty) = .ok m ∧
        run dataless .empty (some (int 1)) .empty = .ok whole ∧ m.data ≠ whole.data := by
  refine ⟨staticBlind_dataless .empty, plainModel .empty (some (int 1)) .empty,
    plainModel .empty none .empty, ?_, ?_, ?_⟩
  · rw [prepare_dataless, Traced.ok_bind, prepare_empty, runPrepared_dataless]
  · rw [run_dataless, prepare_empty]
  · rw [data_plainModel_empty rfl, data_plainModel_empty rfl]
    exact Option.some_ne_none _

end Pipeline
end SchemaForm
