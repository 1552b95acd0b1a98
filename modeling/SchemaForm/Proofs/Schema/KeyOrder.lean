import SchemaForm.Proofs.Schema.KeyOrder.Match
import SchemaForm.Proofs.Schema.KeyOrder.Merge
import SchemaForm.Proofs.Schema.KeyOrder.Normalize
import SchemaForm.Proofs.Schema.KeyOrder.Reference
import SchemaForm.Regex.Engine

/-!
# The order of keys makes no difference

The preparation of a schema is its normal form, with its references expanded and its `allOf` folded
in. None of these steps depends on the order of members, and neither do merging and matching.
-/

namespace SchemaForm.Schema

open Json

theorem reordered_prepare {s s' : Json} (h : Reordered s s') : Reordered (prepare s) (prepare s') :=
  reordered_flatten (reordered_resolveReferences (reordered_normalize h))

/-- Schemas that are equal up to the order of members have preparations that are, merge with such
schemas to such schemas, and accept the same data, present or absent. -/
theorem keyOrder_indifferent [Patterns] {s s' t t' : Document} {data data' : Option Document}
    (hss' : (s : Json).identical s' = true) (htt' : (t : Json).identical t' = true)
    (hdd' : Option.Rel (fun v w : Document => (v : Json).identical w = true) data data') :
    (prepare s).identical (prepare s') = true ∧
      (merge s t).identical (merge s' t') = true ∧
      accepts s (data.map Document.value) = accepts s' (data'.map Document.value) := by
  have hreordered : Reordered s s' := reordered_iff.2 ⟨s.keysUnique, s'.keysUnique, hss'⟩
  have hreordered' : Reordered t t' := reordered_iff.2 ⟨t.keysUnique, t'.keysUnique, htt'⟩
  have hdata : Option.Rel Reordered (data.map Document.value) (data'.map Document.value) := by
    cases hdd' with
    | none => exact .none
    | @some v w h => exact .some (reordered_iff.2 ⟨v.keysUnique, w.keysUnique, h⟩)
  exact ⟨(reordered_prepare hreordered).agree_eq_true,
    (reordered_merge hreordered hreordered').agree_eq_true,
    accepts_eq comparable_identical hreordered _ _ hdata⟩

/-- A form with a definition, a part and a dependency. -/
def contactForm : Json := .obj
  [("definitions", .obj [("name", .obj [("type", .str "string"), ("minLength", int 2)])]),
    ("properties", .obj
      [("name", .obj [("$ref", .str "#/definitions/name")]), ("age", .obj [("minimum", int 0)])]),
    ("dependencies", .obj
      [("age", .arr [.str "name"]), ("name", .obj [("required", .arr [.str "age"])])]),
    ("allOf", .arr [.obj [("required", .arr [.str "name"]), ("type", .str "object")]])]

/-- The same form, its keywords written in another order. -/
def contactFormReordered : Json := .obj
  [("allOf", .arr [.obj [("type", .str "object"), ("required", .arr [.str "name"])]]),
    ("properties", .obj
      [("age", .obj [("minimum", int 0)]), ("name", .obj [("$ref", .str "#/definitions/name")])]),
    ("dependencies", .obj
      [("name", .obj [("required", .arr [.str "age"])]), ("age", .arr [.str "name"])]),
    ("definitions", .obj [("name", .obj [("minLength", int 2), ("type", .str "string")])])]

/-- Both orders of the form have the same preparation and accept the same person. -/
theorem keyOrder_indifferent_contactForm :
    let person := some (.obj [("name", .str "ab"), ("age", int 4)])
    let personReordered := some (.obj [("age", int 4), ("name", .str "ab")])
    contactForm.identical contactFormReordered = true ∧
      (prepare contactForm).identical (prepare contactFormReordered) = true ∧
      (merge contactForm contactForm).identical
        (merge contactFormReordered contactFormReordered) = true ∧
      accepts contactForm person = accepts contactFormReordered personReordered := by
  intro person personReordered
  have hform : contactForm.KeysUnique := by simp [contactForm]
  have hformReordered : contactFormReordered.KeysUnique := by simp [contactFormReordered]
  have hperson : (Json.obj [("name", .str "ab"), ("age", int 4)]).KeysUnique := by simp
  have hpersonReordered : (Json.obj [("age", int 4), ("name", .str "ab")]).KeysUnique := by simp
  have hsame : contactForm.identical contactFormReordered = true := by decide +kernel
  have hdata : (Json.obj [("name", .str "ab"), ("age", int 4)]).identical
      (.obj [("age", int 4), ("name", .str "ab")]) = true := by decide +kernel
  exact ⟨hsame, @keyOrder_indifferent _ ⟨_, hform⟩ ⟨_, hformReordered⟩ ⟨_, hform⟩
    ⟨_, hformReordered⟩ (some ⟨_, hperson⟩) (some ⟨_, hpersonReordered⟩) hsame hsame (.some hdata)⟩

end SchemaForm.Schema
