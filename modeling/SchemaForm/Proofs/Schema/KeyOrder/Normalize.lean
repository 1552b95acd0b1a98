import SchemaForm.Proofs.Schema.KeyOrder.Location
import SchemaForm.Proofs.Schema.Normalize

/-!
# Normal form and the order of keywords

Each new spelling looks up a keyword or two, takes them away and writes others. Only the
`dependencies` are gone through in their order, and each of them is written under its own name into
one of two keywords.
-/

namespace SchemaForm.Schema

open Json Entries

variable {xs ys : Fields}

/-! ### Spellings that look up their keywords -/

theorem sameMembers_renameDefinitions (h : SameMembers Reordered xs ys) :
    SameMembers Reordered (renameDefinitions xs) (renameDefinitions ys) := by
  unfold renameDefinitions
  rw [h.contains_eq]
  split
  · exact h
  · rcases rel_iff.1 (h.values "definitions") with ⟨hx, hy⟩ | ⟨x, y, hx, hy, hxy⟩
    · rw [hx, hy]
      exact h
    · rw [hx, hy]
      exact (h.swapErase "definitions").insert "$defs" hxy

theorem sameMembers_splitTuple (h : SameMembers Reordered xs ys) :
    SameMembers Reordered (splitTuple xs) (splitTuple ys) := by
  unfold splitTuple
  rcases rel_iff.1 (h.values "items") with ⟨hx, hy⟩ | ⟨x, y, hx, hy, hxy⟩
  · rw [hx, hy]
    exact h
  · rw [hx, hy]
    cases hxy using Congruent.kinds with
    | arr items items' hitems =>
      have hrenamed := (h.swapErase "items").insert "prefixItems" (Congruent.arr_iff.2 hitems)
      have hrest := hrenamed.swapErase "additionalItems"
      have hvalue := hrenamed.values "additionalItems"
      dsimp only
      rcases rel_iff.1 hvalue with ⟨hu, hv⟩ | ⟨u, v, hu, hv, huv⟩
      · rw [hu, hv]
        exact hrest
      · rw [hu, hv]
        have huv' := huv
        cases huv with
        | bool flag =>
          cases flag with
          | true => exact hrest.insert "items" (Congruent.obj_iff.2 .nil)
          | false => exact hrest.insert "items" huv'
        | _ => exact hrest.insert "items" huv'
    | _ => exact h

theorem sameMembers_numberBound (exclusive bound : String) (h : SameMembers Reordered xs ys) :
    SameMembers Reordered (numberBound exclusive bound xs) (numberBound exclusive bound ys) := by
  unfold numberBound
  rcases rel_iff.1 (h.values exclusive) with ⟨hx, hy⟩ | ⟨x, y, hx, hy, hxy⟩
  · rw [hx, hy]
    exact h
  · rw [hx, hy]
    cases hxy with
    | bool flag =>
      rcases rel_iff.1 (h.values bound) with ⟨hu, hv⟩ | ⟨u, v, hu, hv, huv⟩
      · rw [hu, hv]
        cases flag <;> exact h.swapErase exclusive
      · rw [hu, hv]
        cases flag with
        | true => exact (h.swapErase bound).insert exclusive huv
        | false => exact h.swapErase exclusive
    | _ => exact h

/-! ### Dependencies -/

theorem foldl_withDependency_obj (dependencies entries : Fields) :
    dependencies.foldl withDependency (some (.obj entries)) =
      some (.obj (dependencies.foldl (fun acc e => Entries.insert e.1 e.2 acc) entries)) := by
  induction dependencies generalizing entries with
  | nil => rfl
  | cons entry rest ih => exact ih _

theorem foldl_withDependency_none {dependencies : Fields} (h : dependencies ≠ []) :
    dependencies.foldl withDependency none =
      some (.obj (dependencies.foldl (fun acc e => Entries.insert e.1 e.2 acc) [])) := by
  cases dependencies with
  | nil => exact absurd rfl h
  | cons entry rest => exact foldl_withDependency_obj rest [entry]

/-- A keyword that is no object loses the dependencies. -/
theorem foldl_withDependency_of_not_obj {v : Json} (hv : v.isObj = false) (dependencies : Fields) :
    dependencies.foldl withDependency (some v) = some v := by
  induction dependencies with
  | nil => rfl
  | cons entry rest ih =>
    cases v with
    | obj entries => cases hv
    | _ => exact ih

/-- No two dependencies have one name, so their order makes no difference. -/
theorem rel_foldl_withDependency {v w : Option Json} (h : Option.Rel Reordered v w)
    (hxs : SameMembers Reordered xs ys) :
    Option.Rel Reordered (xs.foldl withDependency v) (ys.foldl withDependency w) := by
  have hinsert : ∀ {us vs : Fields}, SameMembers Reordered us vs →
      SameMembers Reordered (xs.foldl (fun acc e => Entries.insert e.1 e.2 acc) us)
        (ys.foldl (fun acc e => Entries.insert e.1 e.2 acc) vs) :=
    fun hus => hus.foldl_insert (f := fun _ v => v) (g := fun _ v => v) hxs fun _ _ _ _ _ h => h
  cases h with
  | none =>
    by_cases hnil : xs = []
    · rw [hnil, hxs.eq_nil_iff.1 hnil]
      exact .none
    · rw [foldl_withDependency_none hnil, foldl_withDependency_none (mt hxs.eq_nil_iff.2 hnil)]
      exact .some (Congruent.obj_iff.2 (hinsert .nil))
  | some h =>
    have h' := h
    cases h using Congruent.kinds with
    | obj us vs h =>
      rw [foldl_withDependency_obj, foldl_withDependency_obj]
      exact .some (Congruent.obj_iff.2 (hinsert h))
    | _ =>
      rw [foldl_withDependency_of_not_obj rfl, foldl_withDependency_of_not_obj rfl]
      exact .some h'

theorem sameMembers_splitDependencies (h : SameMembers Reordered xs ys) :
    SameMembers Reordered (splitDependencies xs) (splitDependencies ys) := by
  refine ⟨?_, ?_, fun keyword => ?_⟩
  · exact (membersUnique_splitDependencies (Congruent.membersUnique h)).nodup
  · exact (membersUnique_splitDependencies (Congruent.membersUnique' h)).nodup
  · rw [get?_splitDependencies, get?_splitDependencies]
    refine rel_foldl_withDependency ((h.swapErase "dependencies").values keyword) ?_
    refine (sameMembers_membersOf (h.values "dependencies")).filter
      (p := fun v => dependencyPlace v == keyword) (q := fun v => dependencyPlace v == keyword) ?_
    intro x y hxy
    rw [dependencyPlace, dependencyPlace, hxy.isArr_eq]

/-! ### All spellings, at every place -/

theorem sameMembers_currentKeywords (h : SameMembers Reordered xs ys) :
    SameMembers Reordered (currentKeywords xs) (currentKeywords ys) :=
  sameMembers_splitDependencies <| sameMembers_numberBound _ _ <|
    sameMembers_numberBound _ _ <| sameMembers_splitTuple <| sameMembers_renameDefinitions h

theorem reordered_normalizeLevels (depth : Nat) {v w : Json} (h : Reordered v w) :
    Reordered (normalizeLevels depth v) (normalizeLevels depth w) := by
  induction depth generalizing v w with
  | zero => exact h
  | succ depth ih =>
    have h' := h
    cases h using Congruent.kinds with
    | obj xs ys h =>
      exact Congruent.obj_iff.2 (sameMembers_mapSchemas
        ((sameMembers_currentKeywords h).mono fun _ _ hxy =>
          reordered_mapHeld (fun _ _ => ih) hxy))
    | _ => exact h'

theorem reordered_normalize {v w : Json} (h : Reordered v w) :
    Reordered (normalize v) (normalize w) := by
  rw [← normalizeLevels_eq_normalize (Nat.le_max_left (levels v) (levels w)),
    ← normalizeLevels_eq_normalize (Nat.le_max_right (levels v) (levels w))]
  exact reordered_normalizeLevels _ h

end SchemaForm.Schema
