import SchemaForm.Proofs.Pointer
import SchemaForm.Proofs.SortedMap
import SchemaForm.Proofs.Pipeline.Plain

/-!
# What conditionals hang on

Every dependency that is found comes from a condition met on the way, and a condition on the field
at a path reads that field or one of its members. So in the dependencies of a model every field
that hangs on the data at a path is the field there or lies above it.
-/

namespace SchemaForm

namespace Conditional

open Json Schema

/-! ### Unfolding -/

theorem resolve_of_if_none [Patterns] {fields : Fields} (h : Entries.get? "if" fields = none)
    (data : Option Json) (path : String) :
    resolve (.obj fields) data path =
      (.obj (resolveBelow fields data path).1, (resolveBelow fields data path).2) := by
  rw [resolve]
  split
  · rfl
  · next heq => rw [h] at heq; cases heq

theorem resolve_of_branch_none [Patterns] {fields : Fields} {condition : Json} {data : Option Json}
    (hif : Entries.get? "if" fields = some condition)
    (hbranch : Entries.get? (branchKeyword condition data) fields = none) (path : String) :
    resolve (.obj fields) data path =
      (.obj (resolveBelow (Entries.eraseAll keywords fields) data path).1,
        dependencies condition path ++
          (resolveBelow (Entries.eraseAll keywords fields) data path).2) := by
  rw [resolve]
  split
  · next heq => rw [hif] at heq; cases heq
  · next condition' heq =>
    rw [hif] at heq
    cases heq
    dsimp only
    split
    · rfl
    · next hb => rw [hbranch] at hb; cases hb

theorem resolve_of_branch [Patterns] {fields : Fields} {condition branch : Json}
    {data : Option Json} (hif : Entries.get? "if" fields = some condition)
    (hbranch : Entries.get? (branchKeyword condition data) fields = some branch) (path : String) :
    resolve (.obj fields) data path =
      ((resolve (.obj (absorb (Entries.eraseAll keywords fields) branch)) data path).1,
        dependencies condition path ++
          (resolve (.obj (absorb (Entries.eraseAll keywords fields) branch)) data path).2) := by
  rw [resolve]
  split
  · next heq => rw [hif] at heq; cases heq
  · next condition' heq =>
    rw [hif] at heq
    cases heq
    dsimp only
    split
    · next hb => rw [hbranch] at hb; cases hb
    · next branch' hb =>
      rw [hbranch] at hb
      cases hb
      rfl

theorem resolve_of_not_obj [Patterns] {schema : Json} (h : ∀ fields, schema ≠ .obj fields)
    (data : Option Json) (path : String) : resolve schema data path = (schema, []) := by
  cases schema with
  | obj fields => exact absurd rfl (h fields)
  | _ => rw [resolve]; simp

/-- What the value of one keyword becomes. -/
def resolveValue [Patterns] (keyword : String) (inner : Fields) (data : Option Json)
    (path : String) : Json × List Dependency :=
  if keyword = "properties" then
    (.obj (resolveNamed inner data path).1, (resolveNamed inner data path).2)
  else if keyword = "items" ∧ !data.any isArr then
    resolve (.obj inner) none path
  else
    (.obj inner, [])

theorem resolveBelow_nil [Patterns] (data : Option Json) (path : String) :
    resolveBelow [] data path = ([], []) := by
  rw [resolveBelow]

theorem resolveBelow_cons_obj [Patterns] (keyword : String) (inner rest : Fields)
    (data : Option Json) (path : String) :
    resolveBelow ((keyword, .obj inner) :: rest) data path =
      ((keyword, (resolveValue keyword inner data path).1) :: (resolveBelow rest data path).1,
        (resolveValue keyword inner data path).2 ++ (resolveBelow rest data path).2) := by
  rw [resolveBelow]
  rfl

theorem resolveBelow_cons_of_not_obj [Patterns] {v : Json} (h : ∀ inner, v ≠ .obj inner)
    (keyword : String) (rest : Fields) (data : Option Json) (path : String) :
    resolveBelow ((keyword, v) :: rest) data path =
      ((keyword, v) :: (resolveBelow rest data path).1, (resolveBelow rest data path).2) := by
  cases v with
  | obj inner => exact absurd rfl (h inner)
  | _ => rw [resolveBelow]; simp

/-- Values that are no objects are kept. -/
theorem resolveBelow_of_values [Patterns] {fields : Fields}
    (h : ∀ entry ∈ fields, ∀ inner, entry.2 ≠ .obj inner) (data : Option Json) (path : String) :
    resolveBelow fields data path = (fields, []) := by
  induction fields with
  | nil => rw [resolveBelow_nil]
  | cons entry rest ih =>
    have hrest := ih fun other hother => h other (List.mem_cons_of_mem _ hother)
    rw [resolveBelow_cons_of_not_obj (h entry List.mem_cons_self), hrest]

theorem resolveNamed_nil [Patterns] (data : Option Json) (path : String) :
    resolveNamed [] data path = ([], []) := by
  rw [resolveNamed]

theorem resolveNamed_cons [Patterns] (name : String) (schema : Json) (rest : Fields)
    (data : Option Json) (path : String) :
    resolveNamed ((name, schema) :: rest) data path =
      ((name, (resolve schema (data.bind (get? name)) (Pointer.append path name)).1) ::
          (resolveNamed rest data path).1,
        (resolve schema (data.bind (get? name)) (Pointer.append path name)).2 ++
          (resolveNamed rest data path).2) := by
  rw [resolveNamed]

/-! ### Where dependencies come from -/

/-- The dependency is one of some condition on the field at some path. -/
def Dependency.OfCondition (found : Dependency) : Prop :=
  ∃ condition path, found ∈ dependencies condition path

/-- What a condition on a field reads is the field or one of its members. -/
theorem Dependency.OfCondition.source_eq {found : Dependency} (h : found.OfCondition) :
    found.source = found.dependent ∨
      ∃ name, found.source = Pointer.append found.dependent name := by
  obtain ⟨condition, path, hmem⟩ := h
  unfold dependencies at hmem
  rcases List.mem_append.1 hmem with hmem | hmem
  · obtain ⟨entry, -, rfl⟩ := List.mem_map.1 hmem
    exact Or.inr ⟨entry.1, rfl⟩
  · split at hmem
    · rw [List.mem_singleton] at hmem
      subst hmem
      exact Or.inl rfl
    · cases hmem

/-- Every dependency that is found comes from a condition. -/
theorem ofCondition_of_mem_resolve [Patterns] :
    (∀ schema data path, ∀ found ∈ (resolve schema data path).2, found.OfCondition) ∧
    (∀ fields data path, ∀ found ∈ (resolveBelow fields data path).2, found.OfCondition) ∧
    (∀ properties data path, ∀ found ∈ (resolveNamed properties data path).2,
      found.OfCondition) := by
  apply resolve.mutual_induct
    (fun schema data path => ∀ found ∈ (resolve schema data path).2, found.OfCondition)
    (fun fields data path => ∀ found ∈ (resolveBelow fields data path).2, found.OfCondition)
    (fun properties data path => ∀ found ∈ (resolveNamed properties data path).2,
      found.OfCondition)
  case case1 =>
    intro data path fields hif below more _ ih
    rw [resolve_of_if_none hif]
    exact ih
  case case2 =>
    intro data path fields condition hif rest hbranch below more _ ih found hmem
    rw [resolve_of_branch_none hif hbranch] at hmem
    rcases List.mem_append.1 hmem with hmem | hmem
    · exact ⟨condition, path, hmem⟩
    · exact ih found hmem
  case case3 =>
    intro data path fields condition hif rest branch hbranch resolved more _ ih found hmem
    rw [resolve_of_branch hif hbranch] at hmem
    rcases List.mem_append.1 hmem with hmem | hmem
    · exact ⟨condition, path, hmem⟩
    · exact ih found hmem
  case case4 =>
    intro schema data path hschema found hmem
    rw [resolve_of_not_obj hschema] at hmem
    cases hmem
  case case5 =>
    intro data path found hmem
    rw [resolveBelow_nil] at hmem
    cases hmem
  case case6 =>
    intro data path keyword inner rest value more _ below others _ ihNamed ihItems ihRest found hmem
    rw [resolveBelow_cons_obj] at hmem
    rcases List.mem_append.1 hmem with hmem | hmem
    · unfold resolveValue at hmem
      split at hmem
      · exact ihNamed found hmem
      · split at hmem
        · exact ihItems found hmem
        · cases hmem
    · exact ihRest found hmem
  case case7 =>
    intro data path keyword v rest hv below others _ ih
    rw [resolveBelow_cons_of_not_obj (fun inner h => hv inner h)]
    exact ih
  case case8 =>
    intro data path found hmem
    rw [resolveNamed_nil] at hmem
    cases hmem
  case case9 =>
    intro data path name schema rest resolved more _ below others _ ih ihRest found hmem
    rw [resolveNamed_cons] at hmem
    rcases List.mem_append.1 hmem with hmem | hmem
    · exact ih found hmem
    · exact ihRest found hmem

end Conditional

/-! ### Dependencies of a model -/

namespace ConditionalDeps

/-- The field at `dependent` is noted under `source`. -/
def Notes (deps : ConditionalDeps) (source dependent : String) : Prop :=
  ∃ dependents, SortedMap.get? source deps = some dependents ∧ SortedSet.has dependent dependents

theorem notes_note_iff {deps : ConditionalDeps} {found : Conditional.Dependency}
    {source dependent : String} :
    (deps.note found).Notes source dependent ↔
      found = ⟨source, dependent⟩ ∨ deps.Notes source dependent := by
  unfold Notes note
  rw [SortedMap.get?_insert]
  by_cases hs : found.source = source
  · subst hs
    simp only [if_true, Option.some.injEq, exists_eq_left', SortedSet.has_add, Bool.or_eq_true,
      decide_eq_true_eq]
    constructor
    · rintro (h | h)
      · subst h
        exact Or.inl rfl
      · cases hd : SortedMap.get? found.source deps with
        | none => rw [hd] at h; cases h
        | some dependents => rw [hd] at h; exact Or.inr ⟨dependents, rfl, h⟩
    · rintro (h | ⟨dependents, hd, h⟩)
      · rw [h]
        exact Or.inl rfl
      · rw [hd]
        exact Or.inr h
  · rw [if_neg hs]
    constructor
    · exact Or.inr
    · rintro (h | h)
      · rw [h] at hs
        exact absurd rfl hs
      · exact h

/-- Noting dependencies one after the other notes exactly these. -/
theorem notes_foldl_iff {deps : ConditionalDeps} {found : List Conditional.Dependency}
    {source dependent : String} :
    Notes (found.foldl note deps) source dependent ↔
      ⟨source, dependent⟩ ∈ found ∨ deps.Notes source dependent := by
  induction found generalizing deps with
  | nil => simp
  | cons head rest ih =>
    rw [List.foldl_cons, ih, notes_note_iff, List.mem_cons]
    constructor
    · rintro (h | h | h)
      · exact Or.inl (Or.inr h)
      · exact Or.inl (Or.inl h.symm)
      · exact Or.inr h
    · rintro ((h | h) | h)
      · exact Or.inr (Or.inl h.symm)
      · exact Or.inl h
      · exact Or.inr (Or.inr h)

/-- Every field noted under a path is the field there or lies above it. -/
def Upward (deps : ConditionalDeps) : Prop :=
  ∀ source dependent, deps.Notes source dependent →
    dependent = source ∨ Pointer.isDescendant dependent source = true

end ConditionalDeps

namespace Pipeline

/-- The dependencies of a run are those that resolving the conditionals finds. -/
theorem notes_dependencies_iff [Patterns] {prepared : Json} {data : Option Json}
    {source dependent : String} : (dependencies prepared data).Notes source dependent ↔
      ⟨source, dependent⟩ ∈ (Conditional.resolve prepared data "").2 := by
  unfold dependencies
  rw [ConditionalDeps.notes_foldl_iff]
  constructor
  · rintro (h | ⟨dependents, h, -⟩)
    · exact h
    · cases h
  · exact Or.inl

theorem upward_dependencies [Patterns] (prepared : Json) (data : Option Json) :
    (dependencies prepared data).Upward := by
  intro source dependent h
  have hmem := notes_dependencies_iff.1 h
  have hfound := Conditional.ofCondition_of_mem_resolve.1 prepared data "" _ hmem
  rcases hfound.source_eq with heq | ⟨name, heq⟩
  · exact Or.inl heq.symm
  · refine Or.inr ?_
    have heq : source = Pointer.append dependent name := heq
    rw [heq]
    exact Pointer.isDescendant_append dependent name

end Pipeline
end SchemaForm
