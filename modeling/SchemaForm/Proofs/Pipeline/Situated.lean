import SchemaForm.Proofs.Pipeline.KeysUnique

/-!
# Schemas that read no data

Conditionals and dependents are the keywords by which data change a schema. Where none of them
stands anywhere in a schema, resolving keeps it for all data.
-/

namespace SchemaForm

open Json

/-! ### No conditional and no dependent -/

namespace Schema

/-- The keywords by which data change a schema. -/
def readingKeywords : List String :=
  ["if", Dependent.schemasKeyword, Dependent.requiredKeyword]

mutual

/-- No keyword that reads data stands in the schema, at any depth. -/
def isFixed : Json → Bool
  | .obj fields => areFixed fields
  | _ => true

/-- None of the keywords reads data, and none of their values holds one that does. -/
def areFixed : List (String × Json) → Bool
  | [] => true
  | (keyword, .obj inner) :: rest =>
    !readingKeywords.contains keyword &&
      (if keyword = "properties" then namedFixed inner else areFixed inner) && areFixed rest
  | (keyword, _) :: rest => !readingKeywords.contains keyword && areFixed rest

/-- None of the schemas reads data. Their names are no keywords. -/
def namedFixed : List (String × Json) → Bool
  | [] => true
  | (_, schema) :: rest => isFixed schema && namedFixed rest

end

theorem areFixed_cons_obj_iff {keyword : String} {inner rest : Fields} :
    areFixed ((keyword, .obj inner) :: rest) = true ↔
      keyword ∉ readingKeywords ∧
        (if keyword = "properties" then namedFixed inner else areFixed inner) = true ∧
        areFixed rest = true := by
  rw [areFixed, Bool.and_eq_true, Bool.and_eq_true, Bool.not_eq_true', and_assoc,
    ← Bool.not_eq_true, List.contains_iff_mem]

theorem areFixed_cons_of_not_obj_iff {v : Json} (h : ∀ inner, v ≠ .obj inner) {keyword : String}
    {rest : Fields} :
    areFixed ((keyword, v) :: rest) = true ↔ keyword ∉ readingKeywords ∧ areFixed rest = true := by
  cases v with
  | obj inner => exact absurd rfl (h inner)
  | _ => simp [areFixed]

theorem namedFixed_cons_iff {name : String} {schema : Json} {rest : Fields} :
    namedFixed ((name, schema) :: rest) = true ↔
      isFixed schema = true ∧ namedFixed rest = true := by
  rw [namedFixed, Bool.and_eq_true]

theorem get?_of_areFixed {keyword : String} (hkeyword : keyword ∈ readingKeywords)
    {fields : Fields} (h : areFixed fields = true) : Entries.get? keyword fields = none := by
  induction fields with
  | nil => rfl
  | cons entry rest ih =>
    obtain ⟨key, v⟩ := entry
    obtain ⟨hkey, hrest⟩ : key ∉ readingKeywords ∧ areFixed rest = true := by
      by_cases hv : ∃ inner, v = .obj inner
      · obtain ⟨inner, rfl⟩ := hv
        exact (areFixed_cons_obj_iff.1 h).imp_right And.right
      · exact (areFixed_cons_of_not_obj_iff fun inner heq => hv ⟨inner, heq⟩).1 h
    have hne : key ≠ keyword := fun heq => hkey (heq ▸ hkeyword)
    rw [Entries.get?_cons, if_neg hne, ih hrest]

end Schema

open Schema

/-! ### The passes keep such a schema -/

theorem Conditional.resolve_of_isFixed [Patterns] :
    (∀ schema data path, isFixed schema = true → resolve schema data path = (schema, [])) ∧
    (∀ fields data path, areFixed fields = true → resolveBelow fields data path = (fields, [])) ∧
    (∀ properties data path, namedFixed properties = true →
      resolveNamed properties data path = (properties, [])) := by
  apply resolve.mutual_induct
    (fun schema data path => isFixed schema = true → resolve schema data path = (schema, []))
    (fun fields data path => areFixed fields = true →
      resolveBelow fields data path = (fields, []))
    (fun properties data path => namedFixed properties = true →
      resolveNamed properties data path = (properties, []))
  case case1 =>
    intro data path fields hif below more _ ih h
    rw [resolve_of_if_none hif, ih h]
  case case2 =>
    intro data path fields condition hif rest hbranch below more _ ih h
    rw [get?_of_areFixed (by decide) h] at hif
    cases hif
  case case3 =>
    intro data path fields condition hif rest branch hbranch resolved more _ ih h
    rw [get?_of_areFixed (by decide) h] at hif
    cases hif
  case case4 =>
    intro schema data path hschema _
    exact resolve_of_not_obj hschema data path
  case case5 =>
    intro data path _
    exact resolveBelow_nil data path
  case case6 =>
    intro data path keyword inner rest value more _ below others _ ihNamed ihItems ihRest h
    obtain ⟨-, hinner, hrest⟩ := areFixed_cons_obj_iff.1 h
    have hvalue : resolveValue keyword inner data path = (.obj inner, []) := by
      unfold resolveValue
      split at hinner
      · next hproperties => rw [if_pos hproperties, ihNamed hinner]
      · next hother => rw [if_neg hother, ihItems hinner, ite_self]
    rw [resolveBelow_cons_obj, hvalue, ihRest hrest]
    rfl
  case case7 =>
    intro data path keyword v rest hv below others _ ih h
    have hrest := ((areFixed_cons_of_not_obj_iff fun inner heq => hv inner heq).1 h).2
    rw [resolveBelow_cons_of_not_obj (fun inner heq => hv inner heq), ih hrest]
  case case8 =>
    intro data path _
    exact resolveNamed_nil data path
  case case9 =>
    intro data path name schema rest resolved more _ below others _ ih ihRest h
    obtain ⟨hschema, hrest⟩ := namedFixed_cons_iff.1 h
    rw [resolveNamed_cons, ih hschema, ihRest hrest]
    rfl

namespace Dependent

/-- Without the two keywords nothing is triggered. -/
theorem activate_of_areFixed {fields : Fields} (h : areFixed fields = true) (members : Fields) :
    activate members fields = fields := by
  have hschemas : Entries.get? schemasKeyword fields = none := get?_of_areFixed (by decide) h
  have hrequired : Entries.get? requiredKeyword fields = none := get?_of_areFixed (by decide) h
  rw [activate, applyRequired, applySchemas, hschemas, hrequired]

theorem resolve_of_isFixed :
    (∀ schema data, isFixed schema = true → resolve schema data = schema) ∧
    (∀ fields data, areFixed fields = true → resolveBelow fields data = fields) ∧
    (∀ properties data, namedFixed properties = true →
      resolveNamed properties data = properties) := by
  apply resolve.mutual_induct
    (fun schema data => isFixed schema = true → resolve schema data = schema)
    (fun fields data => areFixed fields = true → resolveBelow fields data = fields)
    (fun properties data => namedFixed properties = true →
      resolveNamed properties data = properties)
  case case1 =>
    intro data fields members hmembers ih h
    rw [activate_of_areFixed h] at ih
    rw [resolve_of_members hmembers, activate_of_areFixed h, ih h]
  case case2 =>
    intro data fields hmembers ih h
    rw [resolve_of_no_members hmembers, ih h]
  case case3 =>
    intro schema data hschema _
    exact resolve_of_not_obj hschema data
  case case4 =>
    intro data _
    exact resolveBelow_nil data
  case case5 =>
    intro data keyword inner rest ihNamed ihRest h
    obtain ⟨-, hinner, hrest⟩ := areFixed_cons_obj_iff.1 h
    rw [resolveBelow_cons_obj, ihRest hrest]
    split at hinner
    · next hproperties => rw [if_pos hproperties, ihNamed hinner]
    · next hother => rw [if_neg hother]
  case case6 =>
    intro data keyword v rest hv ih h
    have hrest := ((areFixed_cons_of_not_obj_iff fun inner heq => hv inner heq).1 h).2
    rw [resolveBelow_cons_of_not_obj (fun inner heq => hv inner heq), ih hrest]
  case case7 =>
    intro data _
    exact resolveNamed_nil data
  case case8 =>
    intro data name schema rest ih ihRest h
    obtain ⟨hschema, hrest⟩ := namedFixed_cons_iff.1 h
    rw [resolveNamed_cons, ih hschema, ihRest hrest]

end Dependent

namespace Pipeline

/-- A schema that reads no data is the same for all data. -/
theorem situated_of_isFixed [Patterns] {schema : Json} (h : isFixed schema = true)
    (data : Option Json) : situated schema data = schema := by
  rw [situated, Conditional.resolve_of_isFixed.1 schema data "" h,
    Dependent.resolve_of_isFixed.1 schema data h]

theorem situated_empty [Patterns] (data : Option Json) : situated .empty data = .empty :=
  situated_of_isFixed rfl data

end Pipeline
end SchemaForm
