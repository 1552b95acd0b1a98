import SchemaForm.Pipeline.Defaults
import SchemaForm.Proofs.SortedMap

/-!
# What defaults leave alone

Filling in defaults gives fields new values and changes nothing else of them. Of the values that
are written for one path the last one counts.
-/

namespace SchemaForm.Defaults

variable {α : Type}

/-- The value that a field takes, where one is written for its path. -/
def written? (path : String) (values : List (String × Option Json)) : Option (Option Json) :=
  SortedMap.lookup path values.reverse

theorem written?_append (path : String) (xs ys : List (String × Option Json)) :
    written? path (xs ++ ys) = (written? path ys).orElse fun _ => written? path xs := by
  rw [written?, List.reverse_append, SortedMap.lookup_append]
  rfl

theorem written?_singleton (path other : String) (value : Option Json) :
    written? path [(other, value)] = if other = path then some value else none := rfl

theorem written?_eq_none_iff {path : String} {values : List (String × Option Json)} :
    written? path values = none ↔ ∀ entry ∈ values, entry.1 ≠ path := by
  rw [written?, SortedMap.lookup_eq_none_iff]
  simp only [List.mem_reverse]

theorem get?_assign (values : List (String × Option Json)) (index : FieldIndex) (path : String) :
    (assign values index).get? path =
      (index.get? path).map fun n => { n with value := (written? path values).getD n.value } := by
  unfold assign
  induction values generalizing index with
  | nil => cases h : index.get? path <;> simp [h, written?]
  | cons entry rest ih =>
    obtain ⟨other, value⟩ := entry
    rw [List.foldl_cons, ih, SortedMap.get?_modify, Option.map_map]
    congr 1
    funext n
    have hwritten : written? path ((other, value) :: rest) = _ :=
      written?_append path [(other, value)] rest
    rw [hwritten, written?_singleton]
    show FieldNode.mk .. = FieldNode.mk ..
    by_cases h : path = other
    · cases written? path rest <;> simp [h]
    · cases written? path rest <;> simp [h, Ne.symm h]

theorem get?_assign_of_unwritten {values : List (String × Option Json)} {path : String}
    (index : FieldIndex) (h : written? path values = none) :
    (assign values index).get? path = index.get? path := by
  rw [get?_assign, h]
  exact Option.map_id'

/-- What does not hang on the value of a field is the same before and after. -/
theorem map_get?_assign {g : FieldNode → α} (hg : ∀ n value, g { n with value } = g n)
    (values : List (String × Option Json)) (index : FieldIndex) (path : String) :
    ((assign values index).get? path).map g = (index.get? path).map g := by
  rw [get?_assign, Option.map_map]
  exact congrFun (congrArg Option.map (funext fun n => hg n _)) _

theorem map_get?_apply {g : FieldNode → α} (hg : ∀ n value, g { n with value } = g n)
    (index : FieldIndex) (data : Option Json) (path : String) :
    ((apply index data).2.get? path).map g = (index.get? path).map g := by
  unfold apply
  split
  · exact map_get?_assign hg _ index path
  · rfl

end SchemaForm.Defaults
