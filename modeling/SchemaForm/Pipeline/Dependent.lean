import SchemaForm.Schema.MergeSize

/-!
# Dependents

Where the data are an object, the schemas under `dependentSchemas` whose trigger is a key of the
data are merged in, and the names under `dependentRequired` with such a trigger become required.
The two keywords go. The schema that results is never larger, so the descent into its properties
ends.
-/

namespace SchemaForm.Dependent

open Json Schema

/-- The keyword with schemas by trigger. -/
def schemasKeyword : String := "dependentSchemas"

/-- The keyword with lists of names by trigger. -/
def requiredKeyword : String := "dependentRequired"

/-- Merges the schemas whose trigger is present. -/
def absorbTriggered (members : Fields) (acc : Fields) : List (String × Json) → Fields
  | [] => acc
  | (trigger, schema) :: rest =>
    absorbTriggered members
      (if Entries.contains trigger members then absorb acc schema else acc) rest

/-- The keywords with the triggered schemas merged in. -/
def applySchemas (members fields : Fields) : Fields :=
  match Entries.get? schemasKeyword fields with
  | some (.obj schemas) =>
    absorbTriggered members (Entries.eraseAll [schemasKeyword] fields) schemas
  | _ => fields

/-- The names whose trigger is present. -/
def triggeredNames (members : Fields) : List (String × Json) → List Json
  | [] => []
  | (trigger, names) :: rest =>
    (if Entries.contains trigger members then names.items?.getD [] else []) ++
      triggeredNames members rest

/-- The keywords with the triggered names required. The lists are those of `fields`, and `acc` are
the keywords gathered so far. -/
def applyRequired (members fields acc : Fields) : Fields :=
  match Entries.get? requiredKeyword fields with
  | some (.obj lists) =>
    let rest := Entries.eraseAll [requiredKeyword] acc
    match triggeredNames members lists with
    | [] => rest
    | names => mergeKeywords rest [("required", .arr names)]
  | _ => acc

/-- The keywords of a schema for an object with these members. -/
def activate (members fields : Fields) : Fields :=
  applyRequired members fields (applySchemas members fields)

theorem weight_absorbTriggered_le (p : String → Bool) (members : Fields) (schemas acc : Fields) :
    weight p (absorbTriggered members acc schemas) ≤ weight p acc + sizeEntries schemas := by
  induction schemas generalizing acc with
  | nil => simp [absorbTriggered, sizeEntries]
  | cons head rest ih =>
    simp only [absorbTriggered, sizeEntries]
    refine Nat.le_trans (ih _) ?_
    have := weight_absorb_lt p acc head.2
    split <;> omega

theorem sizeItems_triggeredNames_le (members : Fields) (lists : Fields) :
    sizeItems (triggeredNames members lists) ≤ sizeEntries lists := by
  induction lists with
  | nil => simp [triggeredNames, sizeItems]
  | cons head rest ih =>
    simp only [triggeredNames, sizeEntries, sizeItems_append]
    have h : sizeItems (head.2.items?.getD []) ≤ head.2.size := by
      cases head.2 <;> simp [items?, sizeItems, size]
    split
    · omega
    · simp only [sizeItems]; omega

/-- Counted by a condition that the keyword meets, merging the triggered schemas costs no more
than the keyword did. -/
theorem weight_applySchemas_le {p : String → Bool} (hp : p schemasKeyword = true)
    (members fields : Fields) : weight p (applySchemas members fields) ≤ weight p fields := by
  unfold applySchemas
  split
  · next schemas h =>
    have ht := weight_absorbTriggered_le p members schemas
      (Entries.eraseAll [schemasKeyword] fields)
    have hs := weight_eraseAll_add_le hp (List.mem_singleton_self schemasKeyword) fields
    simp only [h, sizeOpt_some, size] at hs
    omega
  · omega

/-- The keywords for an object are no larger than those of the schema. -/
theorem sizeEntries_activate_le (members fields : Fields) :
    sizeEntries (activate members fields) ≤ sizeEntries fields := by
  unfold activate applyRequired
  split
  · next lists h =>
    let other := fun key => !([requiredKeyword].contains key)
    have hschemas := weight_applySchemas_le (p := other) (by decide) members fields
    have hrest : sizeEntries ((applySchemas members fields).filter fun entry => other entry.1) =
        weight other (applySchemas members fields) := by
      simpa only [weight_true, Bool.true_and] using
        weight_filter (fun _ => true) other (applySchemas members fields)
    have hfields := weight_add_weight_not other fields
    have hlists := sizeOpt_get?_le_weight (p := fun key => !other key)
      (show (!other requiredKeyword) = true by decide) fields
    have hnames := sizeItems_triggeredNames_le members lists
    simp only [h, sizeOpt_some, size] at hlists
    have herase : Entries.eraseAll [requiredKeyword] (applySchemas members fields) =
        (applySchemas members fields).filter fun entry => other entry.1 := rfl
    rw [herase]
    dsimp only
    split
    · omega
    · next names _ =>
      have hmerge := weight_mergeKeywords_le (fun _ => true)
        ((applySchemas members fields).filter fun entry => other entry.1)
        [("required", .arr (triggeredNames members lists))]
      simp only [weight_true, sizeEntries, size] at hmerge
      omega
  · simpa only [weight_true] using
      weight_applySchemas_le (p := fun _ => true) rfl members fields

mutual

/-- The schema with the dependents that the data trigger, at the root and at every property. -/
def resolve (schema : Json) (data : Option Json) : Json :=
  match schema with
  | .obj fields =>
    match data.bind fields? with
    | some members => .obj (resolveBelow (activate members fields) data)
    | none => .obj (resolveBelow fields data)
  | _ => schema
termination_by (schema.size, 0)
decreasing_by
  · have := sizeEntries_activate_le members fields
    simp only [size, Prod.lex_def]; omega
  · simp only [size, Prod.lex_def]; omega

/-- Resolves the properties among the keywords of a schema. -/
def resolveBelow (fields : Fields) (data : Option Json) : Fields :=
  match fields with
  | [] => []
  | (keyword, .obj inner) :: rest =>
    (keyword, .obj (if keyword = "properties" then resolveNamed inner data else inner)) ::
      resolveBelow rest data
  | (keyword, v) :: rest => (keyword, v) :: resolveBelow rest data
termination_by (sizeEntries fields, 1)
decreasing_by
  all_goals
    simp only [sizeEntries, size, Prod.lex_def]
    try have := size_pos v
    omega

/-- Resolves the schemas of properties, each with the member of its name. -/
def resolveNamed (properties : Fields) (data : Option Json) : Fields :=
  match properties with
  | [] => []
  | (name, schema) :: rest =>
    (name, resolve schema (data.bind (get? name))) :: resolveNamed rest data
termination_by (sizeEntries properties, 1)
decreasing_by
  all_goals
    have := size_pos schema
    simp only [sizeEntries, Prod.lex_def]
    omega

end

end SchemaForm.Dependent
