import SchemaForm.Proofs.Pipeline.Plain
import SchemaForm.Proofs.Pipeline.Situated
import SchemaForm.Proofs.SortedMap
import SchemaForm.Proofs.Store.Dirty
import SchemaForm.Proofs.Store.Edit
import SchemaForm.Regex.Engine

/-!
# Refused edits

An edit can be refused by the pointer it names, by an array index on the way, or by an interceptor
in the middle of a run. Whatever refuses it, the model, its revision, the first data and the
listeners stay, and nobody is told. The choices stay too, but for one case: a choice is noted before
the run that may refuse it, and is not taken back.
-/

namespace SchemaForm

/-- The edit is a choice that is not among the noted ones, at a path that can be read. -/
def Edit.NewChoice (selections : Selections) (edit : Edit) : Prop :=
  ∃ path index segments, edit = .setCombinatorIndex path index ∧
    Pointer.parse path = .ok segments ∧ selections.get? path ≠ some index

namespace Store

/-- Two stores agree in everything but the choices and the cache. -/
structure Kept (before after : Store) : Prop where
  schema : after.schema = before.schema
  config : after.config = before.config
  model : after.model = before.model
  revision : after.revision = before.revision
  initialData : after.initialData = before.initialData
  listeners : after.listeners = before.listeners

theorem Kept.refl (s : Store) : Kept s s := ⟨rfl, rfl, rfl, rfl, rfl, rfl⟩

theorem told_of_error {change : Change} {e : PipelineError}
    (h : change.outcome.result = .error e) : change.told = [] := by
  unfold Change.told
  rw [h]

theorem commit_refused [Patterns] {s : Store} {data : Option Json} {dirty : SortedSet}
    {e : PipelineError} (h : (s.commit data dirty).outcome.result = .error e) :
    Kept s (s.commit data dirty).store ∧
      (s.commit data dirty).store.selections = s.selections := by
  obtain ⟨hschema, hconfig, hinitial, hselections, hlisteners⟩ := commit_keeps s data dirty
  obtain ⟨hmodel, hrevision⟩ := commit_keeps_model h
  exact ⟨⟨hschema, hconfig, hmodel, hrevision, hinitial, hlisteners⟩, hselections⟩

theorem setData_refused [Patterns] {s : Store} {path : String} {value : Json} {e : PipelineError}
    (h : (s.setData path value).outcome.result = .error e) :
    Kept s (s.setData path value).store ∧
      (s.setData path value).store.selections = s.selections := by
  rcases setData_cases s path value with ⟨e', heq⟩ | ⟨-, heq⟩ | ⟨data, dirty, -, -, heq⟩
  · rw [heq]
    exact ⟨Kept.refl s, rfl⟩
  · rw [heq]
    exact ⟨Kept.refl s, rfl⟩
  · rw [heq] at h ⊢
    exact commit_refused h

/-- A refused choice stays noted if its path can be read. -/
theorem setCombinatorIndex_refused [Patterns] {s : Store} {path : String} {index : Nat}
    {e : PipelineError} (h : (s.setCombinatorIndex path index).outcome.result = .error e) :
    Kept s (s.setCombinatorIndex path index).store ∧
      ((s.setCombinatorIndex path index).store.selections = s.selections ↔
        ¬ (Edit.setCombinatorIndex path index).NewChoice s.selections) := by
  rcases setCombinatorIndex_cases s path index with ⟨e', hdirty, heq⟩ | ⟨dirty, hdirty, heq⟩
  · rw [heq]
    refine ⟨Kept.refl s, fun _ => ?_, fun _ => rfl⟩
    rintro ⟨path', index', segments, hedit, hparse, -⟩
    cases hedit
    obtain ⟨dirty, hok⟩ := Dirty.exists_paths_iff.2 ⟨segments, hparse⟩
    rw [hdirty] at hok
    cases hok
  · rw [heq] at h ⊢
    obtain ⟨hkept, hselections⟩ := commit_refused h
    refine ⟨⟨hkept.schema, hkept.config, hkept.model, hkept.revision, hkept.initialData,
      hkept.listeners⟩, ?_⟩
    rw [hselections, SortedMap.insert_eq_self_iff]
    constructor
    · rintro hfound ⟨path', index', segments, hedit, -, hnew⟩
      cases hedit
      exact hnew hfound
    · intro hnone
      by_cases hfound : s.selections.get? path = some index
      · exact hfound
      · obtain ⟨segments, hparse⟩ := Dirty.exists_paths_iff.1 ⟨dirty, hdirty⟩
        exact absurd ⟨path, index, segments, rfl, hparse, hfound⟩ hnone

/-- Every other refused edit leaves the choices too. -/
theorem edit_refused [Patterns] {s : Store} {edit : Edit} {e : PipelineError}
    (hedit : ∀ path index, edit ≠ .setCombinatorIndex path index)
    (h : (s.edit edit).outcome.result = .error e) :
    Kept s (s.edit edit).store ∧ (s.edit edit).store.selections = s.selections := by
  rcases edit_cases s hedit with ⟨e', heq⟩ | heq | ⟨value, heq⟩
  · rw [heq]
    exact ⟨Kept.refl s, rfl⟩
  · rw [heq]
    exact ⟨Kept.refl s, rfl⟩
  · rw [heq] at h ⊢
    exact setData_refused h

/-- A refused edit leaves everything as it was and tells nobody, except that a new choice stays
noted. -/
theorem refused_edit_keeps [Patterns] (s : Store) (edit : Edit) {e : PipelineError}
    (h : (s.edit edit).outcome.result = .error e) :
    Kept s (s.edit edit).store ∧ (s.edit edit).told = [] ∧
      ((s.edit edit).store.selections = s.selections ↔ ¬ edit.NewChoice s.selections) := by
  by_cases hchoice : ∃ path index, edit = .setCombinatorIndex path index
  · obtain ⟨path, index, rfl⟩ := hchoice
    obtain ⟨hkept, hiff⟩ := setCombinatorIndex_refused h
    exact ⟨hkept, told_of_error h, hiff⟩
  · have hedit : ∀ path index, edit ≠ .setCombinatorIndex path index :=
      fun path index heq => hchoice ⟨path, index, heq⟩
    obtain ⟨hkept, hselections⟩ := edit_refused hedit h
    refine ⟨hkept, told_of_error h, fun _ => ?_, fun _ => hselections⟩
    rintro ⟨path, index, segments, heq, -⟩
    exact hedit path index heq

end Store

/-! ### A refused choice that stays -/

/-- Lets the rest of its chain run twice where the data are a value. -/
def Interceptor.twiceOn (value : Json) : Interceptor := fun _ c =>
  if c.data.any value.identical then .proceedThen c .pass else .pass c

theorem Interceptor.runChain_twiceOn [Patterns] {value : Json} {stage : Stage} {c : Context}
    (h : c.data.any value.identical = true) :
    runChain stage [twiceOn value] c = ⟨.error (.nextCalledMultipleTimes stage), []⟩ := by
  rw [runChain, twiceOn, if_pos h]
  rfl

/-- Refuses to evaluate conditionals on a value. -/
def Config.refusing (value : Json) : Config :=
  ⟨[(.evaluateConditionals, Interceptor.twiceOn value)], [], true⟩

theorem Pipeline.runPrepared_refusing [Patterns] (schema : Json) {value : Json} {data : Option Json}
    (h : data.any value.identical = true) (selections : Selections) :
    runPrepared (.refusing value) ⟨schema, []⟩ data selections =
      ⟨.error (.nextCalledMultipleTimes .evaluateConditionals), []⟩ := by
  have hchain : (Config.refusing value).chain .evaluateConditionals = [Interceptor.twiceOn value] :=
    rfl
  rw [runPrepared, Stage.dynamic, runStages, hchain, Interceptor.runChain_twiceOn h]
  rfl

namespace Store

open Json Pipeline

/-- The store that the refusing configuration makes of a schema without data. -/
def firstRefusing [Patterns] (value schema : Json) : Store where
  schema
  config := .refusing value
  cache := some ⟨[(schemaIdentity, ⟨0, Schema.prepare schema, []⟩)], 1⟩
  model := plainModel (Schema.prepare schema) none SortedMap.empty
  revision := 0
  initialData := (plainModel (Schema.prepare schema) none SortedMap.empty).data
  selections := SortedMap.empty
  listeners := Registry.empty

theorem create_refusing [Patterns] (value schema : Json) :
    (create (.refusing value) schema none).result = .ok (firstRefusing value schema) := rfl

/-- A store whose first data are refused notes a choice although the choice is refused. -/
theorem setCombinatorIndex_firstRefusing [Patterns] {value schema : Json} {path : String}
    {dirty : SortedSet} (hdata : (firstRefusing value schema).data.any value.identical = true)
    (hdirty : Dirty.paths path (firstRefusing value schema).model.conditionalDeps = .ok dirty)
    (index : Nat) :
    (firstRefusing value schema).setCombinatorIndex path index =
      ⟨{ firstRefusing value schema with selections := SortedMap.empty.insert path index },
        ⟨.error (.nextCalledMultipleTimes .evaluateConditionals), []⟩⟩ := by
  have hrun := runPrepared_refusing (Schema.prepare schema) hdata
    (SortedMap.empty.insert path index)
  have hbuild : buildModel (.refusing value) schema (firstRefusing value schema).cache
      (firstRefusing value schema).data (SortedMap.empty.insert path index) =
        (⟨.error (.nextCalledMultipleTimes .evaluateConditionals), []⟩,
          (firstRefusing value schema).cache) :=
    congrArg (Prod.mk · (firstRefusing value schema).cache) hrun
  rw [setCombinatorIndex, hdirty]
  dsimp only
  rw [commit_of_error hbuild rfl]
  rfl

/-- Two branches beside a default. -/
def branchesWithDefault : Json :=
  .obj [("default", int 1), ("oneOf", .arr [.empty, .empty])]

theorem prepare_branchesWithDefault :
    Schema.prepare branchesWithDefault = branchesWithDefault :=
  prepare_eq_self rfl rfl rfl rfl

theorem data_branchesWithDefault :
    (firstRefusing (int 1) branchesWithDefault).data = some (int 1) := by
  have hsituated : situated branchesWithDefault none = branchesWithDefault :=
    situated_of_isFixed rfl none
  have hbelow : FieldTree.below .empty branchesWithDefault none "" = ([], []) := by
    rw [FieldTree.below]
    show FieldTree.below .empty (.obj [("default", int 1)]) none "" = _
    rw [FieldTree.below]
    rfl
  have hfields : FieldTree.fields .empty branchesWithDefault none =
      [FieldTree.node .empty branchesWithDefault none "" .root false []] := by
    rw [FieldTree.fields, hbelow]
    rfl
  show (plainModel (Schema.prepare branchesWithDefault) none .empty).data = _
  rw [prepare_branchesWithDefault]
  show (Defaults.apply (FieldTree.build _ (chosenSchema .empty (situated _ none)) none) none).1 = _
  rw [hsituated]
  show (Defaults.apply (FieldTree.build .empty branchesWithDefault none) none).1 = _
  rw [FieldTree.build, hfields]
  rfl

theorem choose_branchesWithDefault :
    (firstRefusing (int 1) branchesWithDefault).edit (.setCombinatorIndex "" 1) =
      ⟨{ firstRefusing (int 1) branchesWithDefault with
          selections := SortedMap.empty.insert "" 1 },
        ⟨.error (.nextCalledMultipleTimes .evaluateConditionals), []⟩⟩ := by
  refine setCombinatorIndex_firstRefusing ?_ (rfl : Dirty.paths "" _ = .ok _) 1
  rw [data_branchesWithDefault]
  rfl

theorem refused_edit_keeps_listeners :
    ∃ s after, (s.edit (.setCombinatorIndex "" 1)).outcome.result =
        .error (.nextCalledMultipleTimes .evaluateConditionals) ∧
      after = (s.edit (.setCombinatorIndex "" 1)).store ∧ Kept s after ∧
      (s.edit (.setCombinatorIndex "" 1)).told = [] ∧
      (after.selections = s.selections ↔
        ¬ (Edit.setCombinatorIndex "" 1).NewChoice s.selections) := by
  have h : ((firstRefusing (int 1) branchesWithDefault).edit
      (.setCombinatorIndex "" 1)).outcome.result =
        .error (.nextCalledMultipleTimes .evaluateConditionals) := by
    rw [choose_branchesWithDefault]
  exact ⟨_, _, h, rfl, refused_edit_keeps _ _ h⟩

/-- A reachable store refuses a choice and keeps it: not every refused edit leaves the store as it
was. -/
theorem refused_choice_stays :
    ∃ s, (create (.refusing (int 1)) branchesWithDefault none).result = .ok s ∧
      (s.edit (.setCombinatorIndex "" 1)).outcome.result =
        .error (.nextCalledMultipleTimes .evaluateConditionals) ∧
      s.selections.get? "" = none ∧
      (s.edit (.setCombinatorIndex "" 1)).store.selections.get? "" = some 1 := by
  refine ⟨firstRefusing (int 1) branchesWithDefault, create_refusing _ _, ?_⟩
  rw [choose_branchesWithDefault]
  exact ⟨rfl, rfl, SortedMap.get?_insert_self "" 1 _⟩

end Store
end SchemaForm
