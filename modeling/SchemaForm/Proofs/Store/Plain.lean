import SchemaForm.Proofs.Pipeline.Plain
import SchemaForm.Proofs.Store.Dirty
import SchemaForm.Proofs.Store.Edit
import SchemaForm.Proofs.Store.Registry

/-!
# Stores without interceptors

What holds of every store that the default configuration can come to: what its cache keeps is what
the static stages make of its schema, its model is the plain model of some data and of its choices,
and its listeners have numbers of their own. No run of such a store fails.
-/

namespace SchemaForm.Store

open Pipeline

/-- What a cache keeps for the schema of a store is what the static stages make of it. -/
def CacheCoherent (schema : Json) (cache : Option StaticCache) : Prop :=
  ∀ kept preparation, cache = some kept → kept.find? schemaIdentity = some preparation →
    preparation.prepared = ⟨Schema.prepare schema, []⟩

/-- The invariant of the stores of the default configuration. -/
structure Plain [Patterns] (s : Store) : Prop where
  config : s.config = .default
  cache : CacheCoherent s.schema s.cache
  model : ∃ data, s.model = plainModel (Schema.prepare s.schema) data s.selections
  listeners : s.listeners.Sound

/-- The store with the plain model of some data. -/
def renewed [Patterns] (s : Store) (cache : Option StaticCache) (data : Option Json) : Store :=
  { s with
    cache
    model := plainModel (Schema.prepare s.schema) data s.selections
    revision := s.revision + 1 }

theorem cacheCoherent_empty (schema : Json) : CacheCoherent schema (some StaticCache.empty) := by
  intro kept preparation hkept hfound
  cases hkept
  cases hfound

/-- A coherent cache stays coherent, and hands out the preparation of the schema. -/
theorem getOrPrepare_of_staticBare [Patterns] {config : Config} (hbare : config.StaticBare)
    {schema : Json} {kept : StaticCache} (h : CacheCoherent schema (some kept)) :
    ∃ preparation after, kept.getOrPrepare config schemaIdentity schema =
        (.ok preparation, after) ∧
      preparation.prepared = ⟨Schema.prepare schema, []⟩ ∧ CacheCoherent schema (some after) := by
  unfold StaticCache.getOrPrepare
  cases hfound : kept.find? schemaIdentity with
  | some preparation => exact ⟨preparation, kept, rfl, h kept preparation rfl hfound, h⟩
  | none =>
    rw [prepare_of_staticBare hbare]
    refine ⟨⟨kept.made, Schema.prepare schema, []⟩, _, rfl, rfl, ?_⟩
    intro after preparation hafter hfound'
    cases hafter
    -- The identity was not kept before, so it is found at the new entry.
    have hnone : kept.entries.find? (fun entry => entry.1 == schemaIdentity) = none := by
      unfold StaticCache.find? at hfound
      exact Option.map_eq_none_iff.1 hfound
    unfold StaticCache.find? at hfound'
    rw [List.find?_append, hnone] at hfound'
    cases hfound'
    rfl

/-- With a coherent cache or without one, building a model is a run on the prepared schema. -/
theorem buildModel_of_staticBare [Patterns] {config : Config} (hbare : config.StaticBare)
    {schema : Json}
    {cache : Option StaticCache} (h : CacheCoherent schema cache) (data : Option Json)
    (selections : Selections) :
    ∃ after, buildModel config schema cache data selections =
        (runPrepared config ⟨Schema.prepare schema, []⟩ data selections, after) ∧
      CacheCoherent schema after := by
  cases cache with
  | none => exact ⟨none, by rw [buildModel, run_of_staticBare hbare], h⟩
  | some kept =>
    obtain ⟨preparation, after, heq, hprepared, hafter⟩ := getOrPrepare_of_staticBare hbare h
    refine ⟨some after, ?_, hafter⟩
    rw [buildModel, heq]
    dsimp only
    rw [Traced.ok_bind, hprepared]

theorem buildModel_default [Patterns] {schema : Json} {cache : Option StaticCache}
    (h : CacheCoherent schema cache) (data : Option Json) (selections : Selections) :
    ∃ after, buildModel .default schema cache data selections =
        (.ok (plainModel (Schema.prepare schema) data selections), after) ∧
      CacheCoherent schema after := by
  rw [← runPrepared_default]
  exact buildModel_of_staticBare Config.staticBare_default h data selections

/-- A commit succeeds with the plain model of the data. -/
theorem commit_default [Patterns] {s : Store} (hconfig : s.config = .default)
    (hcache : CacheCoherent s.schema s.cache) (data : Option Json) (dirty : SortedSet) :
    ∃ cache, CacheCoherent s.schema cache ∧
      s.commit data dirty =
        ⟨s.renewed cache data, .ok (notifications s.model dirty (s.renewed cache data))⟩ := by
  obtain ⟨cache, hbuild, hcoherent⟩ := buildModel_default hcache data s.selections
  rw [← hconfig] at hbuild
  refine ⟨cache, hcoherent, ?_⟩
  rw [commit, hbuild]
  rfl

theorem plain_renewed [Patterns] {s : Store} {cache : Option StaticCache}
    (hconfig : s.config = .default)
    (hcache : CacheCoherent s.schema cache) (hlisteners : s.listeners.Sound)
    (data : Option Json) : Plain (s.renewed cache data) :=
  ⟨hconfig, hcache, ⟨data, rfl⟩, hlisteners⟩

theorem plain_commit [Patterns] {s : Store} (hconfig : s.config = .default)
    (hcache : CacheCoherent s.schema s.cache) (hlisteners : s.listeners.Sound)
    (data : Option Json) (dirty : SortedSet) : Plain (s.commit data dirty).store := by
  obtain ⟨cache, hcoherent, heq⟩ := commit_default hconfig hcache data dirty
  rw [heq]
  exact plain_renewed hconfig hcoherent hlisteners data

/-- A choice is accepted wherever the pointer can be read. -/
theorem Plain.exists_setCombinatorIndex [Patterns] {s : Store} (h : Plain s) {path : String}
    {segments : List String} (hparse : Pointer.parse path = .ok segments) (index : Nat) :
    ∃ cache told, s.setCombinatorIndex path index =
      ⟨({ s with selections := s.selections.insert path index } : Store).renewed cache s.data,
        .ok told⟩ := by
  rcases setCombinatorIndex_cases s path index with ⟨e, hdirty, -⟩ | ⟨dirty, -, heq⟩
  · obtain ⟨dirty, hok⟩ := Dirty.exists_paths_iff.2 ⟨segments, hparse⟩
    rw [hdirty] at hok
    cases hok
  · obtain ⟨cache, -, hcommit⟩ := commit_default
      (s := { s with selections := s.selections.insert path index }) h.config h.cache s.data dirty
    exact ⟨cache, _, heq.trans hcommit⟩

/-- A write at the root is accepted. -/
theorem Plain.exists_setData_root [Patterns] {s : Store} (h : Plain s) (value : Json) :
    ∃ after told, s.setData "" value = ⟨after, .ok told⟩ := by
  have hfound : Json.getAt s.data "" = .ok s.data := rfl
  by_cases hsame : (s.data.any fun v => v.identical value) = true
  · refine ⟨s, [], ?_⟩
    rw [setData, hfound]
    dsimp only
    rw [if_pos hsame]
    rfl
  · obtain ⟨dirty, hdirty⟩ : ∃ dirty, Dirty.paths "" s.model.conditionalDeps = .ok dirty :=
      Dirty.exists_paths_iff.2 ⟨[], rfl⟩
    obtain ⟨cache, -, hcommit⟩ := commit_default h.config h.cache (some value) dirty
    exact ⟨_, _, (setData_eq_commit hfound hsame rfl hdirty).trans hcommit⟩

theorem Plain.setData [Patterns] {s : Store} (h : Plain s) (path : String) (value : Json) :
    Plain (s.setData path value).store := by
  rcases setData_cases s path value with ⟨e, heq⟩ | ⟨-, heq⟩ | ⟨data, dirty, -, -, heq⟩
  · rw [heq]
    exact h
  · rw [heq]
    exact h
  · rw [heq]
    exact plain_commit h.config h.cache h.listeners (some data) dirty

theorem Plain.setCombinatorIndex [Patterns] {s : Store} (h : Plain s) (path : String)
    (index : Nat) : Plain (s.setCombinatorIndex path index).store := by
  rcases setCombinatorIndex_cases s path index with ⟨e, -, heq⟩ | ⟨dirty, -, heq⟩
  · rw [heq]
    exact h
  · rw [heq]
    exact plain_commit (s := { s with selections := s.selections.insert path index })
      h.config h.cache h.listeners s.data dirty

theorem Plain.edit [Patterns] {s : Store} (h : Plain s) (edit : Edit) :
    Plain (s.edit edit).store := by
  by_cases hchoice : ∃ path index, edit = .setCombinatorIndex path index
  · obtain ⟨path, index, rfl⟩ := hchoice
    exact h.setCombinatorIndex path index
  · have hedit : ∀ path index, edit ≠ .setCombinatorIndex path index :=
      fun path index heq => hchoice ⟨path, index, heq⟩
    rcases edit_cases s hedit with ⟨e, heq⟩ | heq | ⟨value, heq⟩
    · rw [heq]
      exact h
    · rw [heq]
      exact h
    · rw [heq]
      exact h.setData edit.target value

theorem Plain.next [Patterns] {s : Store} (h : Plain s) (request : Request) :
    Plain (s.next request) := by
  cases request with
  | edit edit => exact h.edit edit
  | subscribe => exact ⟨h.config, h.cache, h.model, h.listeners.subscribe⟩
  | subscribePath path => exact ⟨h.config, h.cache, h.model, h.listeners.subscribePath path⟩
  | subscribeFormState => exact ⟨h.config, h.cache, h.model, h.listeners.subscribeFormState⟩
  | unsubscribe subscription =>
    exact ⟨h.config, h.cache, h.model, h.listeners.unsubscribe subscription⟩

/-- The first store of a schema and data. -/
def first [Patterns] (schema : Json) (cache : Option StaticCache) (data : Option Json) : Store where
  schema
  config := .default
  cache
  model := plainModel (Schema.prepare schema) data SortedMap.empty
  revision := 0
  initialData := (plainModel (Schema.prepare schema) data SortedMap.empty).data
  selections := SortedMap.empty
  listeners := Registry.empty

theorem plain_first [Patterns] {schema : Json} {cache : Option StaticCache}
    (h : CacheCoherent schema cache) (data : Option Json) : Plain (first schema cache data) :=
  ⟨rfl, h, ⟨data, rfl⟩, Registry.sound_empty⟩

/-- The default configuration makes a store of every schema and all data. -/
theorem create_default [Patterns] (schema : Json) (data : Option Json) :
    ∃ cache, CacheCoherent schema cache ∧
      create .default schema data = .ok (first schema cache data) := by
  obtain ⟨cache, hbuild, hcoherent⟩ :=
    buildModel_default (cacheCoherent_empty schema) data SortedMap.empty
  refine ⟨cache, hcoherent, ?_⟩
  have hkeep : Config.default.cacheStatic = true := rfl
  rw [create, if_pos hkeep, hbuild]
  rfl

/-- Every store that the default configuration can come to is plain. -/
theorem Reachable.plain [Patterns] {s : Store} (h : Reachable .default s) : Plain s := by
  induction h with
  | @created schema data s h =>
    obtain ⟨cache, hcoherent, heq⟩ := create_default schema data
    rw [heq] at h
    cases h
    exact plain_first hcoherent data
  | next _ request ih => exact ih.next request

end SchemaForm.Store
