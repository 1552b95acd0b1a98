import SchemaForm.Proofs.Store.Plain
import SchemaForm.Proofs.Store.Refusal

/-!
# Kept preparations do not show

Two stores of one schema and the same first data, one of which keeps what the static stages make of
the schema while the other runs all stages for every edit. Two things carry the simulation. An edit
comes down to a refusal, nothing, or one commit, and to which of them hangs on the model and the
choices alone. And a commit shows the same in both stores as long as no interceptor stands around a
static stage and a cache holds nothing but the preparation of the schema. Main statement: whatever
is asked of the two stores, they show the same after every step.
-/

namespace SchemaForm

/-- The configuration with the keeping of preparations switched on or off. -/
def Config.keeping (keep : Bool) (config : Config) : Config := { config with cacheStatic := keep }

/-- Two configurations intercept and enrich alike. -/
structure Config.Alike (config other : Config) : Prop where
  interceptors : other.interceptors = config.interceptors
  enrichments : other.enrichments = config.enrichments

theorem Config.alike_keeping (config : Config) (keep : Bool) : config.Alike (config.keeping keep) :=
  ⟨rfl, rfl⟩

theorem Config.Alike.chain_eq {config other : Config} (h : config.Alike other) (stage : Stage) :
    other.chain stage = config.chain stage := by
  simp only [Config.chain, h.interceptors]

theorem Config.Alike.staticBare {config other : Config} (h : config.Alike other)
    (hbare : config.StaticBare) : other.StaticBare := by
  intro stage hstage
  rw [h.chain_eq]
  exact hbare stage hstage

namespace Pipeline

variable {config other : Config}

theorem runStages_of_alike [Patterns] (h : config.Alike other) (stages : List Stage) :
    runStages other stages = runStages config stages := by
  induction stages with
  | nil => rfl
  | cons stage rest ih =>
    funext c
    simp only [runStages, h.chain_eq, ih]

theorem finish_of_alike (h : config.Alike other) : finish other = finish config := by
  funext c
  simp only [finish, h.enrichments]

/-- Whether preparations are kept makes no difference to a run. -/
theorem runPrepared_of_alike [Patterns] (h : config.Alike other) (prepared : Prepared)
    (data : Option Json) (selections : Selections) :
    runPrepared other prepared data selections = runPrepared config prepared data selections := by
  simp only [runPrepared, runStages_of_alike h, finish_of_alike h]

end Pipeline

/-! ### What an edit comes down to -/

/-- What an edit comes down to. -/
inductive Intent where
  | refuse (error : PathError)
  | rest
  | commit (selections : Selections) (data : Option Json) (dirty : SortedSet)

namespace Store

open Pipeline

/-- The store after what an edit comes down to. -/
def carry [Patterns] (s : Store) : Intent → Change
  | .refuse error => s.refused error
  | .rest => s.unchanged
  | .commit selections data dirty => commit { s with selections } data dirty

/-- In every store with this model and these choices the operation comes down to the intent. -/
def Means [Patterns] (operation : Store → Change) (model : FormModel) (selections : Selections)
    (intent : Intent) : Prop :=
  ∀ s : Store, s.model = model → s.selections = selections → operation s = s.carry intent

variable (model : FormModel) (selections : Selections)

theorem exists_means_setData [Patterns] (path : String) (value : Json) :
    ∃ intent, Means (setData · path value) model selections intent := by
  cases hfound : Json.getAt model.data path with
  | error e =>
    refine ⟨.refuse e, ?_⟩
    rintro s rfl rfl
    show s.setData path value = s.refused e
    rw [setData, data, hfound]
  | ok found =>
    by_cases hsame : (found.any fun v => v.identical value) = true
    · refine ⟨.rest, ?_⟩
      rintro s rfl rfl
      show s.setData path value = s.unchanged
      rw [setData, data, hfound]
      dsimp only
      rw [if_pos hsame]
    · cases hset : Json.setAt model.data path value with
      | error e =>
        refine ⟨.refuse e, ?_⟩
        rintro s rfl rfl
        show s.setData path value = s.refused e
        rw [setData, data, hfound]
        dsimp only
        rw [if_neg hsame, hset]
      | ok written =>
        cases hdirty : Dirty.paths path model.conditionalDeps with
        | error e =>
          refine ⟨.refuse e, ?_⟩
          rintro s rfl rfl
          show s.setData path value = s.refused e
          rw [setData, data, hfound]
          dsimp only
          rw [if_neg hsame, hset, hdirty]
        | ok dirty =>
          refine ⟨.commit selections (some written) dirty, ?_⟩
          rintro s rfl rfl
          exact setData_eq_commit hfound hsame hset hdirty

theorem exists_means_setCombinatorIndex [Patterns] (path : String) (index : Nat) :
    ∃ intent, Means (setCombinatorIndex · path index) model selections intent := by
  cases hdirty : Dirty.paths path model.conditionalDeps with
  | error e =>
    refine ⟨.refuse e, ?_⟩
    rintro s rfl rfl
    show s.setCombinatorIndex path index = s.refused e
    rw [setCombinatorIndex, hdirty]
  | ok dirty =>
    refine ⟨.commit (selections.insert path index) model.data dirty, ?_⟩
    rintro s rfl rfl
    show s.setCombinatorIndex path index =
      commit { s with selections := s.selections.insert path index } s.data dirty
    rw [setCombinatorIndex, hdirty]

theorem exists_means_editItems [Patterns] (path : String)
    (change : List Json → Option (List Json)) :
    ∃ intent, Means (editItems · path change) model selections intent := by
  cases hfound : (Json.getAt model.data path).map fun found => found.bind Json.items? with
  | error e =>
    refine ⟨.refuse e, ?_⟩
    rintro s rfl rfl
    show s.editItems path change = s.refused e
    rw [editItems, arrayAt, data, hfound]
  | ok found =>
    cases hchange : found.bind change with
    | none =>
      refine ⟨.rest, ?_⟩
      rintro s rfl rfl
      show s.editItems path change = s.unchanged
      rw [editItems, arrayAt, data, hfound]
      dsimp only
      rw [hchange]
    | some items =>
      obtain ⟨intent, hintent⟩ := exists_means_setData model selections path (.arr items)
      refine ⟨intent, ?_⟩
      rintro s rfl rfl
      rw [← hintent s rfl rfl]
      show s.editItems path change = s.setData path (.arr items)
      rw [editItems, arrayAt, data, hfound]
      dsimp only
      rw [hchange]

theorem exists_means_appendItem [Patterns] (path : String) (item : Json) :
    ∃ intent, Means (appendItem · path item) model selections intent := by
  cases hfound : (Json.getAt model.data path).map fun found => found.bind Json.items? with
  | error e =>
    refine ⟨.refuse e, ?_⟩
    rintro s rfl rfl
    show s.appendItem path item = s.refused e
    rw [appendItem, arrayAt, data, hfound]
  | ok found =>
    obtain ⟨intent, hintent⟩ :=
      exists_means_setData model selections path (.arr (found.getD [] ++ [item]))
    refine ⟨intent, ?_⟩
    rintro s rfl rfl
    rw [← hintent s rfl rfl]
    show s.appendItem path item = s.setData path _
    rw [appendItem, arrayAt, data, hfound]

theorem exists_means_replaceItem [Patterns] (path : String) (index : Nat) (item : Json) :
    ∃ intent, Means (replaceItem · path index item) model selections intent := by
  cases hfound : (Json.getAt model.data path).map fun found => found.bind Json.items? with
  | error e =>
    refine ⟨.refuse e, ?_⟩
    rintro s rfl rfl
    show s.replaceItem path index item = s.refused e
    rw [replaceItem, arrayAt, data, hfound]
  | ok found =>
    by_cases hindex : (found.any fun items => index < items.length) = true
    · obtain ⟨intent, hintent⟩ :=
        exists_means_setData model selections (Pointer.appendIndex path index) item
      refine ⟨intent, ?_⟩
      rintro s rfl rfl
      rw [← hintent s rfl rfl]
      show s.replaceItem path index item = s.setData (Pointer.appendIndex path index) item
      rw [replaceItem, arrayAt, data, hfound]
      dsimp only
      rw [if_pos hindex]
    · refine ⟨.rest, ?_⟩
      rintro s rfl rfl
      show s.replaceItem path index item = s.unchanged
      rw [replaceItem, arrayAt, data, hfound]
      dsimp only
      rw [if_neg hindex]

/-- What an edit comes down to hangs on the model and the choices alone. -/
theorem exists_means_edit [Patterns] (edit : Edit) :
    ∃ intent, Means (Store.edit · edit) model selections intent := by
  cases edit with
  | setData path value => exact exists_means_setData model selections path value
  | setCombinatorIndex path index =>
    exact exists_means_setCombinatorIndex model selections path index
  | appendItem path item => exact exists_means_appendItem model selections path item
  | replaceItem path index item => exact exists_means_replaceItem model selections path index item
  | insertItem path index item => exact exists_means_editItems model selections path _
  | removeItem path index => exact exists_means_editItems model selections path _
  | moveItem path source target => exact exists_means_editItems model selections path _
  | swapItems path i j => exact exists_means_editItems model selections path _
  | clearItems path => exact exists_means_editItems model selections path _

/-! ### What can be seen of a store -/

/-- What can be seen of a store. -/
structure View where
  model : FormModel
  data : Option Json
  selections : Selections
  formState : FormState
  listeners : Registry

/-- What can be seen of a store. -/
def view (s : Store) : View := ⟨s.model, s.data, s.selections, s.formState, s.listeners⟩

/-- What comes of a request: for an edit the error or what the listeners are told. -/
def answer [Patterns] (s : Store) : Request → Traced (List Notification)
  | .edit edit => (s.edit edit).outcome
  | _ => .ok []

/-- What comes of each request, and what can be seen of the store behind it. -/
def observe [Patterns] (s : Store) : List Request → List (Traced (List Notification) × View)
  | [] => []
  | request :: rest =>
    (s.answer request, (s.next request).view) :: (s.next request).observe rest

/-! ### The simulation -/

/-- Two stores that differ at most in whether they keep preparations, and in what they keep. -/
structure Twin (s t : Store) : Prop where
  bare : s.config.StaticBare
  config : s.config.Alike t.config
  cache : CacheCoherent s.schema s.cache
  cache' : CacheCoherent t.schema t.cache
  schema : t.schema = s.schema
  model : t.model = s.model
  revision : t.revision = s.revision
  initialData : t.initialData = s.initialData
  selections : t.selections = s.selections
  listeners : t.listeners = s.listeners

variable {s t : Store}

theorem Twin.view_eq (h : Twin s t) : t.view = s.view := by
  simp only [view, formState, data, h.model, h.selections, h.listeners, h.initialData]

theorem Twin.notifications_eq (h : Twin s t) (before : FormModel) (dirty : SortedSet) :
    notifications before dirty t = notifications before dirty s := by
  simp only [notifications, formState, h.model, h.listeners, h.initialData]

/-- A choice is noted in both stores. -/
theorem Twin.choose (h : Twin s t) (selections : Selections) :
    Twin { s with selections } { t with selections } :=
  ⟨h.bare, h.config, h.cache, h.cache', h.schema, h.model, h.revision, h.initialData, rfl,
    h.listeners⟩

/-- A commit comes to the same in both stores. -/
theorem Twin.commit [Patterns] (h : Twin s t) (data : Option Json) (dirty : SortedSet) :
    (t.commit data dirty).outcome = (s.commit data dirty).outcome ∧
      Twin (s.commit data dirty).store (t.commit data dirty).store := by
  obtain ⟨after, hbuild, hafter⟩ := buildModel_of_staticBare h.bare h.cache data s.selections
  obtain ⟨after', hbuild', hafter'⟩ :=
    buildModel_of_staticBare (h.config.staticBare h.bare) h.cache' data t.selections
  have hsame : runPrepared t.config ⟨Schema.prepare t.schema, []⟩ data t.selections =
      runPrepared s.config ⟨Schema.prepare s.schema, []⟩ data s.selections := by
    rw [runPrepared_of_alike h.config, h.schema, h.selections]
  rw [hsame] at hbuild'
  cases hresult : (runPrepared s.config ⟨Schema.prepare s.schema, []⟩ data s.selections).result with
  | error e =>
    have hkept : Twin { s with cache := after } { t with cache := after' } :=
      ⟨h.bare, h.config, hafter, hafter', h.schema, h.model, h.revision, h.initialData,
        h.selections, h.listeners⟩
    rw [commit_of_error hbuild hresult, commit_of_error hbuild' hresult]
    exact ⟨rfl, hkept⟩
  | ok model =>
    have hnext : Twin
        { s with cache := after, model, revision := s.revision + 1 }
        { t with cache := after', model, revision := t.revision + 1 } :=
      ⟨h.bare, h.config, hafter, hafter', h.schema, rfl, congrArg (· + 1) h.revision,
        h.initialData, h.selections, h.listeners⟩
    have htold := hnext.notifications_eq s.model dirty
    rw [commit_of_ok hbuild hresult, commit_of_ok hbuild' hresult, h.model, htold]
    exact ⟨rfl, hnext⟩

/-- Whatever an edit comes down to, it comes to the same in both stores. -/
theorem Twin.carry [Patterns] (h : Twin s t) (intent : Intent) :
    (t.carry intent).outcome = (s.carry intent).outcome ∧
      Twin (s.carry intent).store (t.carry intent).store := by
  cases intent with
  | refuse error => exact ⟨rfl, h⟩
  | rest => exact ⟨rfl, h⟩
  | commit selections data dirty => exact (h.choose selections).commit data dirty

/-- One step: the answers are the same, and the stores stay twins. -/
theorem Twin.next [Patterns] (h : Twin s t) (request : Request) :
    t.answer request = s.answer request ∧ Twin (s.next request) (t.next request) := by
  cases request with
  | edit edit =>
    obtain ⟨intent, hmeans⟩ := exists_means_edit s.model s.selections edit
    have hs : s.edit edit = s.carry intent := hmeans s rfl rfl
    have ht : t.edit edit = t.carry intent := hmeans t h.model h.selections
    simp only [answer, Store.next, hs, ht]
    exact h.carry intent
  | subscribe =>
    refine ⟨rfl, h.bare, h.config, h.cache, h.cache', h.schema, h.model, h.revision,
      h.initialData, h.selections, ?_⟩
    simp only [Store.next, Store.subscribe, h.listeners]
  | subscribePath path =>
    refine ⟨rfl, h.bare, h.config, h.cache, h.cache', h.schema, h.model, h.revision,
      h.initialData, h.selections, ?_⟩
    simp only [Store.next, Store.subscribePath, h.listeners]
  | subscribeFormState =>
    refine ⟨rfl, h.bare, h.config, h.cache, h.cache', h.schema, h.model, h.revision,
      h.initialData, h.selections, ?_⟩
    simp only [Store.next, Store.subscribeFormState, h.listeners]
  | unsubscribe subscription =>
    refine ⟨rfl, h.bare, h.config, h.cache, h.cache', h.schema, h.model, h.revision,
      h.initialData, h.selections, ?_⟩
    simp only [Store.next, Store.unsubscribe, h.listeners]

/-- A whole run of requests shows the same in both stores. -/
theorem Twin.observe_eq [Patterns] (h : Twin s t) (requests : List Request) :
    t.observe requests = s.observe requests := by
  induction requests generalizing s t with
  | nil => rfl
  | cons request rest ih =>
    obtain ⟨hanswer, hnext⟩ := h.next request
    simp only [observe, hanswer, hnext.view_eq, ih hnext]

/-- The first store of a configuration is the one of a run on the prepared schema, with a cache
that is coherent. -/
theorem create_of_staticBare [Patterns] {config : Config} (hbare : config.StaticBare)
    (schema : Json) (data : Option Json) :
    ∃ cache, CacheCoherent schema cache ∧
      create config schema data =
        (runPrepared config ⟨Schema.prepare schema, []⟩ data SortedMap.empty).map fun model =>
          { schema, config, cache, model
            revision := 0
            initialData := model.data
            selections := SortedMap.empty
            listeners := Registry.empty } := by
  have hcoherent : CacheCoherent schema
      (if config.cacheStatic then some StaticCache.empty else none) := by
    split
    · exact cacheCoherent_empty schema
    · intro kept preparation hkept
      cases hkept
  obtain ⟨cache, hbuild, hafter⟩ := buildModel_of_staticBare hbare hcoherent data SortedMap.empty
  refine ⟨cache, hafter, ?_⟩
  rw [create, hbuild]

/-- Whatever is asked of them, a store that keeps preparations and one that does not come to the
same answers and show the same after every step, if no interceptor stands around a static stage.
Neither is made where the other one is not. -/
theorem keeping_preparations_unseen [Patterns] (config : Config) (hbare : config.StaticBare)
    (schema : Json) (data : Option Json) (requests : List Request) :
    ((create (config.keeping true) schema data).map fun s => (s.view, s.observe requests)) =
      (create (config.keeping false) schema data).map fun s => (s.view, s.observe requests) := by
  have halike := config.alike_keeping true
  have halike' := config.alike_keeping false
  obtain ⟨cache, hcache, hcreate⟩ := create_of_staticBare (halike.staticBare hbare) schema data
  obtain ⟨cache', hcache', hcreate'⟩ := create_of_staticBare (halike'.staticBare hbare) schema data
  rw [hcreate, hcreate', runPrepared_of_alike halike, runPrepared_of_alike halike']
  cases hrun : runPrepared config ⟨Schema.prepare schema, []⟩ data SortedMap.empty with
  | mk result notes =>
    cases result with
    | error e => rfl
    | ok model =>
      have htwin : Twin
          ⟨schema, config.keeping true, cache, model, 0, model.data, .empty, .empty⟩
          ⟨schema, config.keeping false, cache', model, 0, model.data, .empty, .empty⟩ :=
        ⟨halike.staticBare hbare, ⟨rfl, rfl⟩, hcache, hcache', rfl, rfl, rfl, rfl, rfl, rfl⟩
      have hview := htwin.view_eq
      have hobserve := htwin.observe_eq requests
      simp only [Traced.map, Except.map, hview, hobserve]

/-- An interceptor that refuses certain data in a dynamic stage, listeners, and edits that are
accepted, refused, and without effect. -/
theorem keeping_preparations_unseen_refusing :
    (Config.refusing (Json.int 1)).StaticBare ∧
      ((create ((Config.refusing (Json.int 1)).keeping true) branchesWithDefault none).map fun s =>
          (s.view, s.observe [.subscribePath "", .subscribe, .edit (.setCombinatorIndex "" 1),
            .edit (.setData "" (Json.int 2)), .edit (.clearItems "/a")])) =
        ((create ((Config.refusing (Json.int 1)).keeping false) branchesWithDefault none).map
          fun s => (s.view, s.observe [.subscribePath "", .subscribe,
            .edit (.setCombinatorIndex "" 1), .edit (.setData "" (Json.int 2)),
            .edit (.clearItems "/a")])) := by
  have hbare : (Config.refusing (Json.int 1)).StaticBare := by
    intro stage hstage
    rcases List.mem_cons.1 hstage with rfl | hstage
    · rfl
    · rcases List.mem_pair.1 hstage with rfl | rfl
      · rfl
      · rfl
  exact ⟨hbare, keeping_preparations_unseen _ hbare branchesWithDefault none _⟩

end Store
end SchemaForm
