import SchemaForm.SortedMap

/-!
# Listeners

Who listens to a store: listeners of the whole model, of single paths, and of the form state. Each
subscription gets a number of its own, and the listeners of a channel are kept in the order in
which they subscribed.
-/

namespace SchemaForm

/-- A subscription: its channel and its number. -/
inductive Subscription where
  | model (id : Nat)
  | path (path : String) (id : Nat)
  | formState (id : Nat)
deriving DecidableEq

/-- The number of a subscription. -/
def Subscription.id : Subscription → Nat
  | model id => id
  | path _ id => id
  | formState id => id

/-- The listeners of a store. -/
structure Registry where
  lastId : Nat
  models : List Nat
  paths : SortedMap (List Nat)
  formStates : List Nat

namespace Registry

/-- Nobody listens. -/
def empty : Registry := ⟨0, [], SortedMap.empty, []⟩

/-- The listeners of a path. -/
def listenersAt (path : String) (r : Registry) : List Nat := (r.paths.get? path).getD []

/-- Adds a listener of the model. -/
def subscribe (r : Registry) : Registry × Subscription :=
  let id := r.lastId + 1
  ({ r with lastId := id, models := r.models ++ [id] }, .model id)

/-- Adds a listener of a path. -/
def subscribePath (path : String) (r : Registry) : Registry × Subscription :=
  let id := r.lastId + 1
  ({ r with lastId := id, paths := r.paths.insert path (r.listenersAt path ++ [id]) },
    .path path id)

/-- Adds a listener of the form state. -/
def subscribeFormState (r : Registry) : Registry × Subscription :=
  let id := r.lastId + 1
  ({ r with lastId := id, formStates := r.formStates ++ [id] }, .formState id)

/-- Removes a listener. A path without listeners goes too. -/
def unsubscribe (subscription : Subscription) (r : Registry) : Registry :=
  match subscription with
  | .model id => { r with models := r.models.erase id }
  | .formState id => { r with formStates := r.formStates.erase id }
  | .path path id =>
    match r.paths.get? path with
    | none => r
    | some ids =>
      match ids.erase id with
      | [] => { r with paths := r.paths.erase path }
      | rest => { r with paths := r.paths.insert path rest }

/-- The paths that somebody listens to. -/
def subscribedPaths (r : Registry) : List String := r.paths.keys

end Registry
end SchemaForm
