import SchemaForm.Proofs.Pipeline.Seeding
import SchemaForm.Proofs.Pipeline.Situated
import SchemaForm.Regex.Engine

/-!
# Rebuilding a form from its own data

Defaults are filled in last, so a condition, a branch or the type of a field can see on the
filled-in data what it did not see on the data given. A form is rebuilt as it is exactly when the
stages before find on its own data the fields that it has: filling in adds nothing to what it has
filled in.
-/

namespace SchemaForm.Pipeline

open Defaults FieldTree Json

/-- The stages before defaults find in the data of a model what it shows: its schema, its
dependencies, its fields, and the values of those fields that seeding does not reach. -/
structure Reproduces [Patterns] (prepared : Json) (selections : Selections) (m : FormModel) :
    Prop where
  schema : chosenSchema selections (situated prepared m.data) = m.schema
  conditionalDeps : dependencies prepared m.data = m.conditionalDeps
  sameForm : SameForm (plainIndex prepared m.data selections) m.index
  unseeded : ∀ path, written? path (seed m.index m.data).values = none →
    (plainIndex prepared m.data selections).get? path = m.index.get? path

variable (prepared : Json) (data : Option Json) (selections : Selections)

/-- The data of a form are filled in. -/
theorem fill_data_plainModel [Patterns] :
    fill (plainIndex prepared data selections) "" (plainModel prepared data selections).data =
      fill (plainIndex prepared data selections) "" data := by
  rw [data_plainModel]
  exact (settles_fill (nested_plainIndex prepared data selections)).again "" data

theorem seed_plainModel [Patterns] :
    seed (plainModel prepared data selections).index (plainModel prepared data selections).data =
      fill (plainIndex prepared data selections) "" data :=
  ((sameForm_plainModel prepared data selections).fill_eq "" _).trans
    (fill_data_plainModel prepared data selections)

/-- What seeding does not reach is as the tree has it. -/
theorem get?_index_plainModel [Patterns] {path : String}
    (h : written? path (seed (plainModel prepared data selections).index
      (plainModel prepared data selections).data).values = none) :
    (plainModel prepared data selections).index.get? path =
      (plainIndex prepared data selections).get? path := by
  rw [seed_plainModel] at h
  rw [index_plainModel]
  exact get?_assign_of_unwritten _ h

theorem plainModel_data_eq_iff [Patterns] :
    plainModel prepared (plainModel prepared data selections).data selections =
        plainModel prepared data selections ↔
      Reproduces prepared selections (plainModel prepared data selections) := by
  have hseed := seed_plainModel prepared data selections
  have hdata := data_plainModel prepared data selections
  have hindex := index_plainModel prepared data selections
  have hform := sameForm_plainModel prepared data selections
  have hunseeded := @get?_index_plainModel prepared data selections _
  have hannotations : (plainModel prepared data selections).annotations = [] := rfl
  rw [seededIndex, ← hseed] at hindex
  rw [← hseed] at hdata
  generalize plainModel prepared data selections = m at *
  have hform' := sameForm_plainModel prepared m.data selections
  constructor
  · intro h
    rw [h] at hform'
    refine ⟨congrArg FormModel.schema h, congrArg FormModel.conditionalDeps h, hform'.symm, ?_⟩
    intro path hpath
    have hunseeded' := @get?_index_plainModel prepared m.data selections _ path
    rw [h] at hunseeded'
    exact (hunseeded' hpath).symm
  · intro h
    have hfill : fill (plainIndex prepared m.data selections) "" m.data = seed m.index m.data :=
      h.sameForm.fill_eq "" m.data
    have hindex' : assign (seed m.index m.data).values (plainIndex prepared m.data selections) =
        assign (seed m.index m.data).values (plainIndex prepared data selections) := by
      refine SameForm.assign_eq (h.sameForm.trans hform) fun path hpath => ?_
      rw [h.unseeded path hpath, hunseeded hpath]
    have hagain : plainModel prepared m.data selections =
        ⟨chosenSchema selections (situated prepared m.data), (seed m.index m.data).result,
          assign (seed m.index m.data).values (plainIndex prepared m.data selections),
          dependencies prepared m.data, []⟩ := by
      rw [plainModel, apply_plainIndex, seededIndex, hfill]
    rw [hagain, h.schema, h.conditionalDeps, hindex', ← hindex, ← hdata, ← hannotations]

/-- A form is rebuilt as it is exactly when the stages before defaults reproduce it. -/
theorem rebuild_eq_iff [Patterns] (schema : Json) (data : Option Json) (selections : Selections) :
    ∃ m, run .default schema data selections = .ok m ∧
      (run .default schema m.data selections = .ok m ↔
        Reproduces (Schema.prepare schema) selections m) := by
  refine ⟨_, run_default schema data selections, ?_⟩
  rw [run_default, ← plainModel_data_eq_iff]
  constructor
  · intro h
    exact Except.ok.inj (congrArg Traced.result h)
  · intro h
    rw [h]

/-! ### A form that is not rebuilt as it is -/

/-- A field of which nothing is known but its default. -/
def defaultAlone : Json := .obj [("default", int 1)]

theorem prepare_defaultAlone : Schema.prepare defaultAlone = defaultAlone :=
  prepare_eq_self rfl rfl rfl rfl

theorem situated_defaultAlone [Patterns] (data : Option Json) :
    situated defaultAlone data = defaultAlone :=
  situated_of_isFixed rfl data

theorem plainIndex_defaultAlone [Patterns] {data : Option Json} (h : data.bind items? = none) :
    (plainIndex defaultAlone data .empty).get? "" =
      some (node .empty defaultAlone data "" .root false []) :=
  get?_plainIndex_of_leaf (situated_defaultAlone data) rfl rfl h

theorem data_defaultAlone : (plainModel defaultAlone none .empty).data = some (int 1) := by
  rw [data_plainModel, fill_of_some (nested_plainIndex _ _ _) (plainIndex_defaultAlone rfl)]
  rfl

/-- The root is a string as long as there are no data, and a number once its default is there. -/
theorem default_changes_type :
    ∃ m, run .default defaultAlone none .empty = .ok m ∧
      run .default defaultAlone m.data .empty ≠ .ok m := by
  refine ⟨_, run_default _ none .empty, ?_⟩
  rw [prepare_defaultAlone, data_defaultAlone, run_default, prepare_defaultAlone]
  intro h
  have hindex := congrArg FormModel.index (Except.ok.inj (congrArg Traced.result h))
  have hform : SameForm (plainIndex defaultAlone (some (int 1)) .empty)
      (plainIndex defaultAlone none .empty) := by
    refine (sameForm_plainModel _ _ _).symm.trans ?_
    rw [hindex]
    exact sameForm_plainModel _ _ _
  have hroot := hform ""
  rw [plainIndex_defaultAlone rfl, plainIndex_defaultAlone rfl] at hroot
  have htype : Schema.fieldType defaultAlone (some (int 1)) = Schema.fieldType defaultAlone none :=
    congrArg FieldNode.type (Option.some.inj hroot)
  exact absurd htype (by decide)

end SchemaForm.Pipeline
