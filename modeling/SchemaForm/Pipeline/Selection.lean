import SchemaForm.Pointer
import SchemaForm.SortedMap
import SchemaForm.Field.Combinator
import SchemaForm.Schema.MergeSize

/-!
# Selections

Puts a chosen branch in the place of the combinator that offers it, at the root and at every
property. A choice counts only where the schema offers a branch of that number; each one that
counted is noted under its path.
-/

namespace SchemaForm

/-- The chosen branch at each path. -/
abbrev Selections := SortedMap Nat

namespace Selection

open Json Schema

/-- A choice that counted. -/
structure Pinned where
  path : String
  combinator : Combinator

/-- The branch that is chosen at a path, among those that the keywords offer. -/
def chosen? (selections : Selections) (path : String) (fields : Fields) :
    Option (Json × Combinator) :=
  match branches? fields, selections.get? path with
  | some (kind, options), some index =>
    options[index]?.map fun option => (option, Combinator.pinned kind options index)
  | _, _ => none

theorem mem_of_branches? {fields : Fields} {kind : CombinatorKind} {options : List Json}
    (h : branches? fields = some (kind, options)) :
    ∃ keyword ∈ combinatorKeywords, Entries.get? keyword fields = some (.arr options) := by
  unfold branches? at h
  split at h
  · next heq => cases h; exact ⟨"oneOf", by decide, heq⟩
  · next heq _ => cases h; exact ⟨"anyOf", by decide, heq⟩
  · cases h

/-- A branch in the place of its combinator makes a smaller schema. -/
theorem sizeEntries_absorb_option_lt {fields : Fields} {kind : CombinatorKind}
    {options : List Json} {option : Json} (h : branches? fields = some (kind, options))
    (hoption : option ∈ options) :
    sizeEntries (absorb (Entries.eraseAll combinatorKeywords fields) option) <
      sizeEntries fields := by
  obtain ⟨keyword, hmem, hget⟩ := mem_of_branches? h
  have herase := sizeEntries_eraseAll_add_le hmem fields
  have habsorb := sizeEntries_absorb_lt (Entries.eraseAll combinatorKeywords fields) option
  have hsize := size_le_sizeItems hoption
  simp only [hget, sizeOpt_some, size] at herase
  omega

/-- The keywords with a chosen branch in the place of the combinator. -/
def choose (selections : Selections) (path : String) (fields : Fields) : Fields × List Pinned :=
  match chosen? selections path fields with
  | some (option, combinator) =>
    (absorb (Entries.eraseAll combinatorKeywords fields) option, [⟨path, combinator⟩])
  | none => (fields, [])

theorem sizeEntries_choose_le (selections : Selections) (path : String) (fields : Fields) :
    sizeEntries (choose selections path fields).1 ≤ sizeEntries fields := by
  unfold choose
  split
  · next option combinator h =>
    unfold chosen? at h
    split at h
    · next kind options index hb _ =>
      obtain ⟨found, hfound, heq⟩ := Option.map_eq_some_iff.1 h
      cases heq
      exact Nat.le_of_lt (sizeEntries_absorb_option_lt hb (List.mem_of_getElem? hfound))
    · cases h
  · exact Nat.le_refl _

mutual

/-- The schema at a path with the chosen branches in place, and the choices that counted. -/
def resolve (selections : Selections) (schema : Json) (path : String) : Json × List Pinned :=
  match schema with
  | .obj fields =>
    let (below, found) := resolveBelow selections (choose selections path fields).1 path
    (.obj below, (choose selections path fields).2 ++ found)
  | _ => (schema, [])
termination_by (schema.size, 0)
decreasing_by
  have := sizeEntries_choose_le selections path fields
  simp only [size, Prod.lex_def]; omega

/-- Resolves the properties among the keywords of a schema. -/
def resolveBelow (selections : Selections) (fields : Fields) (path : String) :
    Fields × List Pinned :=
  match fields with
  | [] => ([], [])
  | (keyword, .obj inner) :: rest =>
    let (named, found) :=
      if keyword = "properties" then resolveNamed selections inner path else (inner, [])
    let (others, more) := resolveBelow selections rest path
    ((keyword, .obj named) :: others, found ++ more)
  | (keyword, v) :: rest =>
    let (others, more) := resolveBelow selections rest path
    ((keyword, v) :: others, more)
termination_by (sizeEntries fields, 1)
decreasing_by
  all_goals
    simp only [sizeEntries, size, Prod.lex_def]
    try have := size_pos v
    omega

/-- Resolves the schemas of properties. -/
def resolveNamed (selections : Selections) (properties : Fields) (path : String) :
    Fields × List Pinned :=
  match properties with
  | [] => ([], [])
  | (name, schema) :: rest =>
    let (resolved, found) := resolve selections schema (Pointer.append path name)
    let (others, more) := resolveNamed selections rest path
    ((name, resolved) :: others, found ++ more)
termination_by (sizeEntries properties, 1)
decreasing_by
  all_goals
    have := size_pos schema
    simp only [sizeEntries, Prod.lex_def]
    omega

end

end Selection
end SchemaForm
