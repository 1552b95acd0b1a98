import SchemaForm.Proofs.Pipeline.Leftover

/-!
# Resolved conditionals stay resolved

A branch may bring a conditional of its own, and properties with conditionals, but the pass goes on
in the merged schema until none is left. Main statement: a resolved schema has no `if` at any
property, however deep, and resolving it again for the same data changes nothing and finds no
dependency. What the first pass leaves alone, items beside a list, the second leaves alone too.
-/

namespace SchemaForm.Conditional

open Json Schema

theorem exists_resolve_obj [Patterns] (fields : Fields) (data : Option Json) (path : String) :
    ∃ resolved, (resolve (.obj fields) data path).1 = .obj resolved := by
  cases hif : Entries.get? "if" fields with
  | none => exact ⟨_, by rw [resolve_of_if_none hif]⟩
  | some condition =>
    cases hbranch : Entries.get? (branchKeyword condition data) fields with
    | none => exact ⟨_, by rw [resolve_of_branch_none hif hbranch]⟩
    | some branch =>
      have := size_absorb_branch_lt hif hbranch
      rw [resolve_of_branch hif hbranch]
      exact exists_resolve_obj _ data path
termination_by sizeEntries fields

/-- Without a condition of its own a schema is settled as soon as its keywords are. -/
theorem resolve_of_settled [Patterns] {fields : Fields} {data : Option Json} {path : String}
    (hif : Entries.get? "if" fields = none) (h : resolveBelow fields data path = (fields, [])) :
    resolve (.obj fields) data path = (.obj fields, []) := by
  rw [resolve_of_if_none hif, h]

/-- The value of a keyword is an object again, which the next pass keeps if it keeps the properties
and the items. -/
theorem resolveValue_settled [Patterns] (keyword : String) {inner : Fields} {data : Option Json}
    {path again : String}
    (hnamed : resolveNamed (resolveNamed inner data path).1 data again =
      ((resolveNamed inner data path).1, []))
    (hitems : resolve (resolve (.obj inner) none path).1 none again =
      ((resolve (.obj inner) none path).1, [])) :
    ∃ next, (resolveValue keyword inner data path).1 = .obj next ∧
      resolveValue keyword next data again = (.obj next, []) := by
  simp only [resolveValue]
  by_cases hproperties : keyword = "properties"
  · refine ⟨_, by rw [if_pos hproperties], ?_⟩
    rw [if_pos hproperties, hnamed]
  · simp only [if_neg hproperties]
    by_cases hresolved : keyword = "items" ∧ !data.any isArr
    · obtain ⟨next, hnext⟩ := exists_resolve_obj inner none path
      rw [hnext] at hitems
      exact ⟨next, by rw [if_pos hresolved, hnext], by rw [if_pos hresolved, hitems]⟩
    · exact ⟨inner, by rw [if_neg hresolved], by rw [if_neg hresolved]⟩

/-- What one pass makes of a schema, of keywords or of properties the next pass keeps, and it finds
no condition there. -/
theorem resolve_settled [Patterns] :
    (∀ schema data path, ∀ again,
      resolve (resolve schema data path).1 data again = ((resolve schema data path).1, [])) ∧
    (∀ fields data path, ∀ again, resolveBelow (resolveBelow fields data path).1 data again =
      ((resolveBelow fields data path).1, [])) ∧
    (∀ properties data path, ∀ again,
      resolveNamed (resolveNamed properties data path).1 data again =
        ((resolveNamed properties data path).1, [])) := by
  apply resolve.mutual_induct
    (fun schema data path => ∀ again,
      resolve (resolve schema data path).1 data again = ((resolve schema data path).1, []))
    (fun fields data path => ∀ again, resolveBelow (resolveBelow fields data path).1 data again =
      ((resolveBelow fields data path).1, []))
    (fun properties data path => ∀ again,
      resolveNamed (resolveNamed properties data path).1 data again =
        ((resolveNamed properties data path).1, []))
  case case1 =>
    intro data path fields hif below more _ ih again
    rw [resolve_of_if_none hif]
    exact resolve_of_settled (get?_if_resolveBelow hif data path) (ih again)
  case case2 =>
    intro data path fields condition hif rest hbranch below more _ ih again
    rw [resolve_of_branch_none hif hbranch]
    exact resolve_of_settled (get?_if_resolveBelow (get?_if_eraseAll fields) data path) (ih again)
  case case3 =>
    intro data path fields condition hif rest branch hbranch resolved more _ ih again
    rw [resolve_of_branch hif hbranch]
    exact ih again
  case case4 =>
    intro schema data path hschema again
    rw [resolve_of_not_obj hschema]
    exact resolve_of_not_obj hschema data again
  case case5 =>
    intro data path again
    rw [resolveBelow_nil]
    exact resolveBelow_nil data again
  case case6 =>
    intro data path keyword inner rest value more _ below others _ ihNamed ihItems ihRest again
    obtain ⟨next, hnext, hagain⟩ := resolveValue_settled keyword (ihNamed again) (ihItems again)
    rw [resolveBelow_cons_obj, hnext, resolveBelow_cons_obj, hagain, ihRest again]
    rfl
  case case7 =>
    intro data path keyword v rest hv below others _ ih again
    rw [resolveBelow_cons_of_not_obj (fun inner h => hv inner h),
      resolveBelow_cons_of_not_obj (fun inner h => hv inner h), ih again]
  case case8 =>
    intro data path again
    rw [resolveNamed_nil]
    exact resolveNamed_nil data again
  case case9 =>
    intro data path name schema rest resolved more _ below others _ ih ihRest again
    rw [resolveNamed_cons, resolveNamed_cons, ih, ihRest again]
    rfl

/-- Resolving conditionals is complete and stable: no condition is left at the root or at any
property, however deep, and resolving the result again for the same data, from whatever path,
keeps it as it is and finds no dependency. -/
theorem resolve_complete_and_stable [Patterns] (schema : Json) (data : Option Json)
    (path : String) : (∀ segments, keywordAt? "if" segments (resolve schema data path).1 = none) ∧
      ∀ again,
        resolve (resolve schema data path).1 data again = ((resolve schema data path).1, []) :=
  ⟨keywordAt?_if_resolve.1 schema data path, resolve_settled.1 schema data path⟩

end SchemaForm.Conditional
