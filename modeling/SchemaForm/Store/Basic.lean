import SchemaForm.Json.Update
import SchemaForm.Pipeline.Cache
import SchemaForm.Store.Dirty
import SchemaForm.Store.Registry

/-!
# The form store

A store holds the current model of a form. Every accepted edit runs the pipeline again and makes a
new model, whose `revision` is one more; the listeners whose fields changed are then told, path
listeners first, then those of the model, then those of the form state. A refused edit leaves model,
data and listeners as they were.
-/

namespace SchemaForm

/-- The data of a form, and whether they differ from the first ones. -/
structure FormState where
  data : Option Json
  isDirty : Bool

/-- The form state as an object. -/
def FormState.toJson (s : FormState) : Json :=
  .obj [("data", s.data.getD .null), ("isDirty", .bool s.isDirty)]

/-- What a listener is told. -/
inductive Notification where
  | path (id : Nat) (node : FieldNode)
  | model (id : Nat) (model : FormModel)
  | formState (id : Nat) (state : FormState)

/-- The number of the listener that is told. -/
def Notification.id : Notification → Nat
  | path id _ => id
  | model id _ => id
  | formState id _ => id

/-- The current state of a form. -/
structure Store where
  schema : Json
  config : Config
  cache : Option StaticCache
  model : FormModel
  /-- How many edits made a new model. -/
  revision : Nat
  initialData : Option Json
  selections : Selections
  listeners : Registry

/-- A store after an operation, and what came of the operation. -/
structure Change where
  store : Store
  outcome : Traced (List Notification)

namespace Store

/-- The identity under which the schema of a store is cached. -/
def schemaIdentity : Nat := 0

/-- Builds a model, and keeps what the static stages made of the schema. -/
def buildModel [Patterns] (config : Config) (schema : Json) (cache : Option StaticCache)
    (data : Option Json) (selections : Selections) : Traced FormModel × Option StaticCache :=
  match cache with
  | none => (Pipeline.run config schema data selections, none)
  | some cache =>
    let (t, cache) := cache.getOrPrepare config schemaIdentity schema
    (t.bind fun preparation =>
      Pipeline.runPrepared config preparation.prepared data selections, some cache)

/-- A new store with the first model. -/
def create [Patterns] (config : Config) (schema : Json) (data : Option Json) : Traced Store :=
  let cache := if config.cacheStatic then some StaticCache.empty else none
  let (t, cache) := buildModel config schema cache data SortedMap.empty
  t.map fun model =>
    { schema, config, cache, model
      revision := 0
      initialData := model.data
      selections := SortedMap.empty
      listeners := Registry.empty }

/-- The current data. -/
def data (s : Store) : Option Json := s.model.data

/-- The field at a path. -/
def node? (s : Store) (path : String) : Option FieldNode := s.model.get? path

/-- The current form state. -/
def formState (s : Store) : FormState :=
  ⟨s.model.data, !Dirty.sameData s.model.data s.initialData⟩

/-- What the listeners of a path are told: nothing unless the path is affected and its field is
there and differs. -/
def pathNotifications (before after : FormModel) (dirty : SortedSet) (path : String)
    (ids : List Nat) : List Notification :=
  if Dirty.affects path dirty then
    match after.get? path with
    | some node => if Dirty.differs (before.get? path) node then ids.map (.path · node) else []
    | none => []
  else
    []

/-- What the listeners of a store are told when its model replaces another. -/
def notifications (before : FormModel) (dirty : SortedSet) (s : Store) : List Notification :=
  s.listeners.paths.entries.flatMap (fun entry =>
    pathNotifications before s.model dirty entry.1 entry.2) ++
  s.listeners.models.map (.model · s.model) ++
  s.listeners.formStates.map (.formState · s.formState)

/-- The operation changed nothing. -/
def unchanged (s : Store) : Change := ⟨s, .ok []⟩

/-- The operation was refused. -/
def refused (s : Store) (error : PathError) : Change := ⟨s, ⟨.error (.path error), []⟩⟩

/-- Builds the model of new data, and tells the listeners. -/
def commit [Patterns] (s : Store) (data : Option Json) (dirty : SortedSet) : Change :=
  let (t, cache) := buildModel s.config s.schema s.cache data s.selections
  match t.result with
  | .error e => ⟨{ s with cache }, ⟨.error e, t.notes⟩⟩
  | .ok model =>
    let next := { s with cache, model, revision := s.revision + 1 }
    ⟨next, ⟨.ok (notifications s.model dirty next), t.notes⟩⟩

/-- Writes a value at a path. Writing the value that is there changes nothing. -/
def setData [Patterns] (s : Store) (path : String) (value : Json) : Change :=
  match Json.getAt s.data path with
  | .error e => s.refused e
  | .ok found =>
    if found.any fun v => v.identical value then
      s.unchanged
    else
      match Json.setAt s.data path value, Dirty.paths path s.model.conditionalDeps with
      | .ok data, .ok dirty => s.commit (some data) dirty
      | .error e, _ => s.refused e
      | _, .error e => s.refused e

/-- Puts a branch of the combinator at a path in force, whatever the data fit. A number without a
branch is kept and has no effect. -/
def setCombinatorIndex [Patterns] (s : Store) (path : String) (index : Nat) : Change :=
  match Dirty.paths path s.model.conditionalDeps with
  | .error e => s.refused e
  | .ok dirty => commit { s with selections := s.selections.insert path index } s.data dirty

/-- The elements of the array at a path. -/
def arrayAt (s : Store) (path : String) : Except PathError (Option (List Json)) :=
  (Json.getAt s.data path).map fun found => found.bind Json.items?

/-- Writes the edited elements of the array at a path. Without an array, and where the edit does
not apply, nothing changes. -/
def editItems [Patterns] (s : Store) (path : String) (edit : List Json → Option (List Json)) :
    Change :=
  match s.arrayAt path with
  | .error e => s.refused e
  | .ok found =>
    match found.bind edit with
    | none => s.unchanged
    | some items => s.setData path (.arr items)

/-- Adds an element at the end; where there is no array, one is made. -/
def appendItem [Patterns] (s : Store) (path : String) (item : Json) : Change :=
  match s.arrayAt path with
  | .error e => s.refused e
  | .ok found => s.setData path (.arr (found.getD [] ++ [item]))

/-- Inserts an element at a position, at the latest at the end. -/
def insertItem [Patterns] (s : Store) (path : String) (index : Nat) (item : Json) : Change :=
  s.editItems path fun items => some (items.insertIdx (min index items.length) item)

/-- Removes the element at a position. -/
def removeItem [Patterns] (s : Store) (path : String) (index : Nat) : Change :=
  s.editItems path fun items => if index < items.length then some (items.eraseIdx index) else none

/-- Replaces the element at a position by writing to its own path. -/
def replaceItem [Patterns] (s : Store) (path : String) (index : Nat) (item : Json) : Change :=
  match s.arrayAt path with
  | .error e => s.refused e
  | .ok found =>
    if found.any fun items => index < items.length then
      s.setData (Pointer.appendIndex path index) item
    else
      s.unchanged

/-- The elements with the one at `source` moved to `target`. -/
def moved (source target : Nat) (items : List Json) : Option (List Json) :=
  match items[source]? with
  | some item =>
    if target < items.length ∧ source ≠ target then
      some ((items.eraseIdx source).insertIdx target item)
    else
      none
  | none => none

/-- The elements with those at two positions exchanged. -/
def swapped (i j : Nat) (items : List Json) : Option (List Json) :=
  match items[i]?, items[j]? with
  | some a, some b => if i ≠ j then some ((items.set i b).set j a) else none
  | _, _ => none

/-- Moves an element to another position. -/
def moveItem [Patterns] (s : Store) (path : String) (source target : Nat) : Change :=
  s.editItems path (moved source target)

/-- Exchanges two elements. -/
def swapItems [Patterns] (s : Store) (path : String) (i j : Nat) : Change :=
  s.editItems path (swapped i j)

/-- Removes all elements. -/
def clearItems [Patterns] (s : Store) (path : String) : Change :=
  s.editItems path fun _ => some []

/-- Adds a listener of the model. -/
def subscribe (s : Store) : Store × Subscription :=
  let (listeners, subscription) := s.listeners.subscribe
  ({ s with listeners }, subscription)

/-- Adds a listener of a path. -/
def subscribePath (s : Store) (path : String) : Store × Subscription :=
  let (listeners, subscription) := s.listeners.subscribePath path
  ({ s with listeners }, subscription)

/-- Adds a listener of the form state. -/
def subscribeFormState (s : Store) : Store × Subscription :=
  let (listeners, subscription) := s.listeners.subscribeFormState
  ({ s with listeners }, subscription)

/-- Removes a listener. -/
def unsubscribe (s : Store) (subscription : Subscription) : Store :=
  { s with listeners := s.listeners.unsubscribe subscription }

/-- The paths that somebody listens to. -/
def subscribedPaths (s : Store) : List String := s.listeners.subscribedPaths

end Store
end SchemaForm
