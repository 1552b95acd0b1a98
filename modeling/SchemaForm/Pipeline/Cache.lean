import SchemaForm.Pipeline.Run

/-!
# Kept preparations

Keeps what the static stages made of a schema, by the identity of the schema and not by its text:
two schemas of equal text are prepared apart. Preparations are numbered in the order in which they
are made, so two answers are the same object if they have the same number. A cache belongs to one
configuration.
-/

namespace SchemaForm

/-- A prepared schema, and the number of its preparation. -/
structure Preparation where
  number : Nat
  prepared : Prepared

/-- Preparations by the identity of their schema. -/
structure StaticCache where
  entries : List (Nat × Preparation)
  /-- How many preparations were made so far. -/
  made : Nat

namespace StaticCache

/-- Nothing kept. -/
def empty : StaticCache := ⟨[], 0⟩

/-- The preparation kept for an identity. -/
def find? (cache : StaticCache) (identity : Nat) : Option Preparation :=
  (cache.entries.find? fun entry => entry.1 == identity).map Prod.snd

/-- The preparation for an identity: the one kept, or a new one that is kept if it succeeds. -/
def getOrPrepare [Patterns] (config : Config) (identity : Nat) (schema : Json)
    (cache : StaticCache) : Traced Preparation × StaticCache :=
  match cache.find? identity with
  | some preparation => (.ok preparation, cache)
  | none =>
    let t := Pipeline.prepare config schema
    match t.result with
    | .ok prepared =>
      let preparation := ⟨cache.made, prepared⟩
      (⟨.ok preparation, t.notes⟩,
        ⟨cache.entries ++ [(identity, preparation)], cache.made + 1⟩)
    | .error e => (⟨.error e, t.notes⟩, cache)

/-- The number of preparations kept. -/
def size (cache : StaticCache) : Nat := cache.entries.length

/-- Nothing is kept. -/
def isEmpty (cache : StaticCache) : Bool := cache.entries.isEmpty

/-- Forgets all preparations. -/
def clear (cache : StaticCache) : StaticCache := { cache with entries := [] }

end StaticCache
end SchemaForm
