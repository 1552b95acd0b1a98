import SchemaForm.Proofs.Json.Text
import SchemaForm.Proofs.SortedMap
import SchemaForm.Validation.Cache

/-!
# Kept validators are those of their schemas

A validator is kept under the text of its schema, and different schemas have different texts. So
what is found in the cache is what compiling the schema would give, and whatever fields were checked
before, a check finds the issues that the schema of the field alone gives.
-/

namespace SchemaForm.Validation

variable {validator : Validator} {cache : CompiledCache}

/-- The issues of a field by its own schema, compiled for it alone. -/
def fieldIssues? (validator : Validator) (node : FieldNode) : Option (List Issue) :=
  (checkedValue? node).bind fun v =>
    (validator node.schema).bind fun issuesOf => reported? node.path (issuesOf v)

namespace CompiledCache

/-- What is kept under the text of a schema is what became of it. -/
def Coherent (validator : Validator) (cache : CompiledCache) : Prop :=
  ∀ schema kept, SortedMap.get? schema.text cache = some kept → kept = validator schema

theorem coherent_empty (validator : Validator) : Coherent validator .empty := by
  intro schema kept h
  cases h

theorem Coherent.insert (h : Coherent validator cache) (schema : Json) :
    Coherent validator (SortedMap.insert schema.text (validator schema) cache) := by
  intro other kept hkept
  rw [SortedMap.get?_insert] at hkept
  by_cases htext : schema.text = other.text
  · rw [if_pos htext] at hkept
    -- two schemas that share an entry are one
    rw [← Json.text_injective htext]
    exact (Option.some.inj hkept).symm
  · rw [if_neg htext] at hkept
    exact h other kept hkept

theorem Coherent.get (h : Coherent validator cache) (schema : Json) :
    (get validator schema cache).1 = validator schema ∧
      Coherent validator (get validator schema cache).2 := by
  unfold CompiledCache.get
  cases hkept : SortedMap.get? schema.text cache with
  | some kept => exact ⟨h schema kept hkept, h⟩
  | none => exact ⟨rfl, h.insert schema⟩

/-- A check finds what a check without a cache does, and keeps nothing wrong. -/
theorem Coherent.check (h : Coherent validator cache) (node : FieldNode) :
    (check validator node cache).1 = fieldIssues? validator node ∧
      Coherent validator (check validator node cache).2 := by
  unfold CompiledCache.check fieldIssues?
  cases checkedValue? node with
  | none => exact ⟨rfl, h⟩
  | some v =>
    obtain ⟨hfound, hcache⟩ := h.get node.schema
    refine ⟨?_, hcache⟩
    dsimp only
    rw [hfound, Option.bind_some]

/-- The cache behind the checks of some fields. -/
def checkAll (validator : Validator) (nodes : List FieldNode) (cache : CompiledCache) :
    CompiledCache :=
  nodes.foldl (fun cache node => (check validator node cache).2) cache

theorem Coherent.checkAll (h : Coherent validator cache) (nodes : List FieldNode) :
    Coherent validator (checkAll validator nodes cache) := by
  induction nodes generalizing cache with
  | nil => exact h
  | cons node rest ih => exact ih (h.check node).2

/-- The cache behind any checks is coherent. -/
theorem coherent_checkAll (validator : Validator) (nodes : List FieldNode) :
    Coherent validator (checkAll validator nodes .empty) :=
  (coherent_empty validator).checkAll nodes

end CompiledCache
end SchemaForm.Validation
