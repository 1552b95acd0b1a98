import SchemaForm.Store.Basic

/-!
# Edits, requests and reachable stores

The operations that may make a new model, as data, and the stores that a configuration can come to.
Every operation on an array is a refusal, or does nothing, or writes once; a write and a choice end
in `commit`, which is the one place where the model of a store changes.
-/

namespace SchemaForm

/-- An operation that may make a new model. -/
inductive Edit where
  | setData (path : String) (value : Json)
  | setCombinatorIndex (path : String) (index : Nat)
  | appendItem (path : String) (item : Json)
  | insertItem (path : String) (index : Nat) (item : Json)
  | removeItem (path : String) (index : Nat)
  | replaceItem (path : String) (index : Nat) (item : Json)
  | moveItem (path : String) (source target : Nat)
  | swapItems (path : String) (i j : Nat)
  | clearItems (path : String)

namespace Edit

/-- The pointer that an edit names. -/
def path : Edit → String
  | .setData path _ => path
  | .setCombinatorIndex path _ => path
  | .appendItem path _ => path
  | .insertItem path _ _ => path
  | .removeItem path _ => path
  | .replaceItem path _ _ => path
  | .moveItem path _ _ => path
  | .swapItems path _ _ => path
  | .clearItems path => path

/-- The pointer that an edit writes at: its own one, or that of an element below it. -/
def target : Edit → String
  | .replaceItem path index _ => Pointer.appendIndex path index
  | edit => edit.path

end Edit

/-- What can be asked of a store. -/
inductive Request where
  | edit (edit : Edit)
  | subscribe
  | subscribePath (path : String)
  | subscribeFormState
  | unsubscribe (subscription : Subscription)

/-- What the listeners are told by an operation: nothing if it was refused. -/
def Change.told (change : Change) : List Notification :=
  match change.outcome.result with
  | .ok notifications => notifications
  | .error _ => []

namespace Store

/-- A store after an edit. -/
def edit [Patterns] (s : Store) : Edit → Change
  | .setData path value => s.setData path value
  | .setCombinatorIndex path index => s.setCombinatorIndex path index
  | .appendItem path item => s.appendItem path item
  | .insertItem path index item => s.insertItem path index item
  | .removeItem path index => s.removeItem path index
  | .replaceItem path index item => s.replaceItem path index item
  | .moveItem path source target => s.moveItem path source target
  | .swapItems path i j => s.swapItems path i j
  | .clearItems path => s.clearItems path

/-- A store after a request. -/
def next [Patterns] (s : Store) : Request → Store
  | .edit edit => (s.edit edit).store
  | .subscribe => s.subscribe.1
  | .subscribePath path => (s.subscribePath path).1
  | .subscribeFormState => s.subscribeFormState.1
  | .unsubscribe subscription => s.unsubscribe subscription

/-- The stores that a configuration can come to. -/
inductive Reachable [Patterns] (config : Config) : Store → Prop where
  | created {schema : Json} {data : Option Json} {s : Store}
      (h : (create config schema data).result = .ok s) : Reachable config s
  | next {s : Store} (h : Reachable config s) (request : Request) :
      Reachable config (s.next request)

/-! ### Commits -/

variable {s : Store} {data : Option Json} {dirty : SortedSet}

section Built

variable {t : Traced FormModel} {cache : Option StaticCache}

/-- A commit that fails keeps everything but the cache. -/
theorem commit_of_error [Patterns] {e : PipelineError}
    (h : buildModel s.config s.schema s.cache data s.selections = (t, cache))
    (hresult : t.result = .error e) :
    s.commit data dirty = ⟨{ s with cache }, ⟨.error e, t.notes⟩⟩ := by
  unfold commit
  simp only [h, hresult]

/-- A commit that succeeds changes the model, the revision and the cache. -/
theorem commit_of_ok [Patterns] {model : FormModel}
    (h : buildModel s.config s.schema s.cache data s.selections = (t, cache))
    (hresult : t.result = .ok model) :
    s.commit data dirty =
      ⟨{ s with cache, model, revision := s.revision + 1 },
        ⟨.ok (notifications s.model dirty { s with cache, model, revision := s.revision + 1 }),
          t.notes⟩⟩ := by
  unfold commit
  simp only [h, hresult]

end Built

/-- What a commit leaves as it was, whether it fails or not. -/
theorem commit_keeps [Patterns] (s : Store) (data : Option Json) (dirty : SortedSet) :
    (s.commit data dirty).store.schema = s.schema ∧
      (s.commit data dirty).store.config = s.config ∧
      (s.commit data dirty).store.initialData = s.initialData ∧
      (s.commit data dirty).store.selections = s.selections ∧
      (s.commit data dirty).store.listeners = s.listeners := by
  cases hbuild : buildModel s.config s.schema s.cache data s.selections with
  | mk t cache =>
    cases hresult : t.result with
    | error e =>
      rw [commit_of_error hbuild hresult]
      exact ⟨rfl, rfl, rfl, rfl, rfl⟩
    | ok model =>
      rw [commit_of_ok hbuild hresult]
      exact ⟨rfl, rfl, rfl, rfl, rfl⟩

/-- A commit that fails keeps the model and its revision too. -/
theorem commit_keeps_model [Patterns] {e : PipelineError}
    (h : (s.commit data dirty).outcome.result = .error e) :
    (s.commit data dirty).store.model = s.model ∧
      (s.commit data dirty).store.revision = s.revision := by
  cases hbuild : buildModel s.config s.schema s.cache data s.selections with
  | mk t cache =>
    cases hresult : t.result with
    | error e' =>
      rw [commit_of_error hbuild hresult]
      exact ⟨rfl, rfl⟩
    | ok model =>
      rw [commit_of_ok hbuild hresult] at h
      cases h

/-! ### What an edit comes down to -/

variable {path : String} {value : Json} {index : Nat}

/-- The value at the path is not the one to be written. -/
def Changes (s : Store) (path : String) (value : Json) : Prop :=
  ∀ found, Json.getAt s.data path = .ok (some found) → found.identical value = false

/-- A write is refused, or does nothing because the value is there, or commits the data with the
value. -/
theorem setData_cases [Patterns] (s : Store) (path : String) (value : Json) :
    (∃ e, s.setData path value = s.refused e) ∨
      (¬ s.Changes path value ∧ s.setData path value = s.unchanged) ∨
      ∃ data dirty, Json.setAt s.data path value = .ok data ∧
        Dirty.paths path s.model.conditionalDeps = .ok dirty ∧
        s.setData path value = s.commit (some data) dirty := by
  unfold setData
  cases hfound : Json.getAt s.data path with
  | error e => exact .inl ⟨e, rfl⟩
  | ok found =>
    dsimp only
    by_cases hsame : (found.any fun v => v.identical value) = true
    · rw [if_pos hsame]
      obtain ⟨v, rfl, hv⟩ := (Option.any_eq_true _ _).1 hsame
      refine .inr (.inl ⟨fun hchanges => ?_, rfl⟩)
      rw [hchanges v hfound] at hv
      cases hv
    · rw [if_neg hsame]
      cases hset : Json.setAt s.data path value with
      | error e => exact .inl ⟨e, rfl⟩
      | ok data =>
        cases hdirty : Dirty.paths path s.model.conditionalDeps with
        | error e => exact .inl ⟨e, rfl⟩
        | ok dirty => exact .inr (.inr ⟨data, dirty, rfl, rfl, rfl⟩)

theorem setData_eq_commit [Patterns] {s : Store} {path : String} {value data : Json}
    {found : Option Json} {dirty : SortedSet} (hfound : Json.getAt s.data path = .ok found)
    (hnew : ¬ (found.any fun v => v.identical value) = true)
    (hset : Json.setAt s.data path value = .ok data)
    (hdirty : Dirty.paths path s.model.conditionalDeps = .ok dirty) :
    s.setData path value = s.commit (some data) dirty := by
  rw [setData, hfound]
  dsimp only
  rw [if_neg hnew, hset, hdirty]

/-- A choice is refused, or is noted before the data are committed again. -/
theorem setCombinatorIndex_cases [Patterns] (s : Store) (path : String) (index : Nat) :
    (∃ e, Dirty.paths path s.model.conditionalDeps = .error e ∧
        s.setCombinatorIndex path index = s.refused e) ∨
      ∃ dirty, Dirty.paths path s.model.conditionalDeps = .ok dirty ∧
        s.setCombinatorIndex path index =
          commit { s with selections := s.selections.insert path index } s.data dirty := by
  unfold setCombinatorIndex
  cases Dirty.paths path s.model.conditionalDeps with
  | error e => exact .inl ⟨e, rfl, rfl⟩
  | ok dirty => exact .inr ⟨dirty, rfl, rfl⟩

/-- Editing elements is refused, or does nothing, or writes the elements. -/
theorem editItems_cases [Patterns] (s : Store) (path : String)
    (change : List Json → Option (List Json)) :
    (∃ e, s.editItems path change = s.refused e) ∨ s.editItems path change = s.unchanged ∨
      ∃ items, s.editItems path change = s.setData path (.arr items) := by
  unfold editItems
  cases s.arrayAt path with
  | error e => exact .inl ⟨e, rfl⟩
  | ok found =>
    dsimp only
    cases found.bind change with
    | none => exact .inr (.inl rfl)
    | some items => exact .inr (.inr ⟨items, rfl⟩)

/-- Every edit but a choice is refused, or does nothing, or writes one value at its target. -/
theorem edit_cases [Patterns] (s : Store) {edit : Edit}
    (h : ∀ path index, edit ≠ .setCombinatorIndex path index) :
    (∃ e, s.edit edit = s.refused e) ∨ s.edit edit = s.unchanged ∨
      ∃ value, s.edit edit = s.setData edit.target value := by
  have items : ∀ change, s.edit edit = s.editItems edit.target change →
      (∃ e, s.edit edit = s.refused e) ∨ s.edit edit = s.unchanged ∨
        ∃ value, s.edit edit = s.setData edit.target value := by
    intro change heq
    rw [heq]
    rcases editItems_cases s edit.target change with h | h | ⟨items, h⟩
    · exact .inl h
    · exact .inr (.inl h)
    · exact .inr (.inr ⟨.arr items, h⟩)
  cases edit with
  | setCombinatorIndex path index => exact absurd rfl (h path index)
  | setData path value => exact .inr (.inr ⟨value, rfl⟩)
  | appendItem path item =>
    show (∃ e, s.appendItem path item = s.refused e) ∨ s.appendItem path item = s.unchanged ∨
      ∃ value, s.appendItem path item = s.setData path value
    unfold appendItem
    cases s.arrayAt path with
    | error e => exact .inl ⟨e, rfl⟩
    | ok found => exact .inr (.inr ⟨_, rfl⟩)
  | replaceItem path index item =>
    show (∃ e, s.replaceItem path index item = s.refused e) ∨
      s.replaceItem path index item = s.unchanged ∨
      ∃ value, s.replaceItem path index item = s.setData (Pointer.appendIndex path index) value
    unfold replaceItem
    cases s.arrayAt path with
    | error e => exact .inl ⟨e, rfl⟩
    | ok found =>
      dsimp only
      split
      · exact .inr (.inr ⟨item, rfl⟩)
      · exact .inr (.inl rfl)
  | insertItem path index item => exact items _ rfl
  | removeItem path index => exact items _ rfl
  | moveItem path source target => exact items _ rfl
  | swapItems path i j => exact items _ rfl
  | clearItems path => exact items _ rfl

/-- Every edit is refused, or does nothing, or commits data after noting a choice, if it is one. -/
theorem edit_commits [Patterns] (s : Store) (edit : Edit) :
    (∃ e, s.edit edit = s.refused e) ∨ s.edit edit = s.unchanged ∨
      ∃ selections data dirty, Dirty.paths edit.target s.model.conditionalDeps = .ok dirty ∧
        s.edit edit = commit { s with selections } data dirty := by
  by_cases hchoice : ∃ path index, edit = .setCombinatorIndex path index
  · obtain ⟨path, index, rfl⟩ := hchoice
    rcases setCombinatorIndex_cases s path index with ⟨e, -, heq⟩ | ⟨dirty, hdirty, heq⟩
    · exact .inl ⟨_, heq⟩
    · exact .inr (.inr ⟨_, _, dirty, hdirty, heq⟩)
  · have hedit : ∀ path index, edit ≠ .setCombinatorIndex path index :=
      fun path index heq => hchoice ⟨path, index, heq⟩
    rcases edit_cases s hedit with h | h | ⟨value, hwrite⟩
    · exact .inl h
    · exact .inr (.inl h)
    · rcases setData_cases s edit.target value with
        ⟨e, heq⟩ | ⟨-, heq⟩ | ⟨data, dirty, -, hdirty, heq⟩
      · exact .inl ⟨e, hwrite.trans heq⟩
      · exact .inr (.inl (hwrite.trans heq))
      · exact .inr (.inr ⟨s.selections, some data, dirty, hdirty, hwrite.trans heq⟩)

end Store
end SchemaForm
