import SchemaForm.Pointer
import SchemaForm.Schema.Match
import SchemaForm.Schema.MergeSize

/-!
# Conditionals

Replaces `if`, `then` and `else` by the branch that the data choose, at the root and at every
property, and notes which data each choice hangs on. A branch is merged into what stands beside the
conditional, and may bring a conditional of its own; the merged schema is smaller than the one it
came from. Items are resolved too while there is no array to judge them by.
-/

namespace SchemaForm.Conditional

open Json Schema

/-- The shape of the field at `dependent` hangs on the data at `source`. -/
structure Dependency where
  source : String
  dependent : String
deriving DecidableEq

/-- The keywords of a conditional. -/
def keywords : List String := ["if", "then", "else"]

/-- The data that a condition on the field at a path reads: the named properties, and the field
itself where a value is asked for. -/
def dependencies (condition : Json) (path : String) : List Dependency :=
  (((condition.getFields? "properties").getD []).map fun entry =>
    ⟨Pointer.append path entry.1, path⟩) ++
  if (condition.get? "const").isSome || (condition.get? "enum").isSome then [⟨path, path⟩] else []

/-- The keyword of the branch that the data choose. -/
def branchKeyword [Patterns] (condition : Json) (data : Option Json) : String :=
  if accepts condition data then "then" else "else"

theorem branchKeyword_mem [Patterns] (condition : Json) (data : Option Json) :
    branchKeyword condition data ∈ keywords ∧ "if" ≠ branchKeyword condition data := by
  unfold branchKeyword
  split <;> decide

/-- A merged branch is smaller than the schema with the conditional. -/
theorem size_absorb_branch_lt [Patterns] {fields : Fields} {condition branch : Json}
    {data : Option Json} (hif : Entries.get? "if" fields = some condition)
    (hbranch : Entries.get? (branchKeyword condition data) fields = some branch) :
    sizeEntries (absorb (Entries.eraseAll keywords fields) branch) < sizeEntries fields := by
  obtain ⟨hmem, hne⟩ := branchKeyword_mem condition data
  have h := sizeEntries_eraseAll_add_add_le hne (by decide) hmem fields
  have ha := sizeEntries_absorb_lt (Entries.eraseAll keywords fields) branch
  simp only [hif, hbranch, sizeOpt_some] at h
  omega

mutual

/-- The schema at a path with its conditionals resolved, and the data they hang on. -/
def resolve [Patterns] (schema : Json) (data : Option Json) (path : String) :
    Json × List Dependency :=
  match schema with
  | .obj fields =>
    match _hif : Entries.get? "if" fields with
    | none =>
      let (below, found) := resolveBelow fields data path
      (.obj below, found)
    | some condition =>
      let rest := Entries.eraseAll keywords fields
      match _hbranch : Entries.get? (branchKeyword condition data) fields with
      | none =>
        let (below, found) := resolveBelow rest data path
        (.obj below, dependencies condition path ++ found)
      | some branch =>
        let (resolved, found) := resolve (.obj (absorb rest branch)) data path
        (resolved, dependencies condition path ++ found)
  | _ => (schema, [])
termination_by (schema.size, 0)
decreasing_by
  · simp only [size, Prod.lex_def]; omega
  · have := sizeEntries_eraseAll_add_le (show "if" ∈ keywords by decide) fields
    simp only [size, Prod.lex_def]; omega
  · have := size_absorb_branch_lt _hif _hbranch
    simp only [size, Prod.lex_def]; omega

/-- Resolves the properties and the items among the keywords of a schema. -/
def resolveBelow [Patterns] (fields : Fields) (data : Option Json) (path : String) :
    Fields × List Dependency :=
  match fields with
  | [] => ([], [])
  | (keyword, .obj inner) :: rest =>
    let (value, found) :=
      if keyword = "properties" then
        let (named, found) := resolveNamed inner data path
        (Json.obj named, found)
      else if keyword = "items" ∧ !data.any isArr then
        resolve (.obj inner) none path
      else
        (.obj inner, [])
    let (others, more) := resolveBelow rest data path
    ((keyword, value) :: others, found ++ more)
  | (keyword, v) :: rest =>
    let (others, more) := resolveBelow rest data path
    ((keyword, v) :: others, more)
termination_by (sizeEntries fields, 1)
decreasing_by
  all_goals
    simp only [sizeEntries, size, Prod.lex_def]
    try have := size_pos v
    omega

/-- Resolves the schemas of properties, each with the member of its name. -/
def resolveNamed [Patterns] (properties : Fields) (data : Option Json) (path : String) :
    Fields × List Dependency :=
  match properties with
  | [] => ([], [])
  | (name, schema) :: rest =>
    let (resolved, found) := resolve schema (data.bind (get? name)) (Pointer.append path name)
    let (others, more) := resolveNamed rest data path
    ((name, resolved) :: others, found ++ more)
termination_by (sizeEntries properties, 1)
decreasing_by
  all_goals
    have := size_pos schema
    simp only [sizeEntries, Prod.lex_def]
    omega

end

end SchemaForm.Conditional
