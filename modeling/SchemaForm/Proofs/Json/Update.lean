import SchemaForm.Json.Update

/-!
# Reading by segments

A value is read one segment after the other; below absent data everything is absent.
-/

namespace SchemaForm.Json

@[simp] theorem atSegments?_nil (data : Option Json) : atSegments? data [] = data := rfl

theorem atSegments?_cons (data : Option Json) (segment : String) (rest : List String) :
    atSegments? data (segment :: rest) = atSegments? (data.bind (child? segment)) rest := rfl

theorem atSegments?_append (data : Option Json) (xs ys : List String) :
    atSegments? data (xs ++ ys) = atSegments? (atSegments? data xs) ys := by
  induction xs generalizing data with
  | nil => rfl
  | cons segment xs ih => exact ih _

@[simp] theorem atSegments?_none (segments : List String) : atSegments? none segments = none := by
  induction segments with
  | nil => rfl
  | cons segment segments ih => exact ih

/-- What stands below a segment stands below a child. -/
theorem exists_child_of_atSegments? {data v : Json} {segment : String} {rest : List String}
    (h : atSegments? (some data) (segment :: rest) = some v) :
    ∃ child, child? segment data = some child ∧ atSegments? (some child) rest = some v := by
  rw [atSegments?_cons, Option.bind_some] at h
  cases hchild : child? segment data with
  | none =>
    rw [hchild, atSegments?_none] at h
    cases h
  | some child => exact ⟨child, rfl, hchild ▸ h⟩

/-- Outside arrays a segment selects the member of its name. -/
theorem child?_eq_get? {v : Json} (h : ∀ items, v ≠ .arr items) (segment : String) :
    child? segment v = v.get? segment := by
  cases v with
  | arr items => exact absurd rfl (h items)
  | _ => rfl

theorem getAt_of_parse {pointer : String} {segments : List String}
    (h : Pointer.parse pointer = .ok segments) (data : Option Json) :
    getAt data pointer = .ok (atSegments? data segments) := by
  rw [getAt, h]
  rfl

theorem setAt_of_parse {pointer : String} {segments : List String}
    (h : Pointer.parse pointer = .ok segments) (data : Option Json) (value : Json) :
    setAt data pointer value = setSegments pointer value segments (data.getD .null) := by
  rw [setAt, h]
  rfl

end SchemaForm.Json
