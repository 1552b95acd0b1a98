import SchemaForm.Proofs.Schema.KeyOrder.Location
import SchemaForm.Proofs.Schema.Reference

/-!
# References and the order of keywords

A reference is expanded to the definition of its name, and is not expanded again inside. Both depend
on which references and definitions there are, and on the order of neither.
-/

namespace SchemaForm.Schema

open Json Entries

variable {v w : Json} {xs ys : Fields}

/-! ### The references of a schema -/

theorem mem_references_of_reordered {reference : String} (h : Reordered v w)
    (hv : reference ∈ references v) : reference ∈ references w := by
  induction h using Congruent.induct with
  | arr xs ys h =>
    rw [references, mem_referencesItems_iff] at hv ⊢
    obtain ⟨x, hx, hreference⟩ := hv
    obtain ⟨y, hy, -, ih⟩ := exists_of_mem_forall₂ h hx
    exact ⟨y, hy, ih hreference⟩
  | obj xs ys h =>
    rw [references, mem_referencesEntries_iff] at hv ⊢
    refine h.exists_mem (P := Refers reference) (Q := Refers reference) ?_ hv
    intro key x y hboth hx
    obtain ⟨hxy, ih⟩ := hboth
    rcases hx with ⟨hkey, rfl⟩ | hx
    · cases hxy
      exact Or.inl ⟨hkey, rfl⟩
    · exact Or.inr (ih hx)
  | _ => simp [references] at hv

theorem mem_references_iff (h : Reordered v w) (reference : String) :
    reference ∈ references v ↔ reference ∈ references w :=
  ⟨mem_references_of_reordered h, mem_references_of_reordered h.symm⟩

theorem reference?_eq (h : SameMembers Reordered xs ys) : reference? xs = reference? ys :=
  bind_eq_of_rel (h.values "$ref") fun _ _ hxy => hxy.str?_eq

/-! ### Inlining -/

theorem reordered_inlineWith {target? target?' : String → Option Json}
    (htarget : ∀ reference, Option.Rel Reordered (target? reference) (target?' reference))
    (h : Reordered v w) : Reordered (inlineWith target? v) (inlineWith target?' w) := by
  refine RebuildAlike.reordered ⟨fun _ hv => inlineWith_of_not_obj hv target?,
    fun _ hv => inlineWith_of_not_obj hv target?', ?_⟩ h
  intro xs ys hxs hbelow
  rw [inlineWith, inlineWith, reference?_eq hxs]
  cases reference? ys with
  | none =>
    dsimp only
    rw [inlineKeywords_eq_mapSchemas, inlineKeywords_eq_mapSchemas]
    exact Congruent.obj_iff.2 hbelow
  | some reference =>
    exact rel_getD (htarget reference) (Congruent.obj_iff.2 hxs)

/-! ### Expanding -/

theorem rel_definition? {definitions definitions' : Fields}
    (h : SameMembers Reordered definitions definitions') (reference : String) :
    Option.Rel Reordered (definition? definitions reference)
      (definition? definitions' reference) := by
  unfold definition?
  cases definitionName? reference with
  | none => exact .none
  | some name => exact h.values name

theorem reordered_expand {definitions definitions' : Fields}
    (hdefinitions : SameMembers Reordered definitions definitions')
    {available available' : List String}
    (havailable : ∀ reference, reference ∈ available ↔ reference ∈ available')
    (h : Reordered v w) :
    Reordered (expand definitions available v) (expand definitions' available' w) := by
  induction available, v using expand.induct generalizing available' w with
  | case1 available v ih =>
    unfold expand
    refine reordered_inlineWith (fun reference => ?_) h
    by_cases hreference : reference ∈ available
    · have hothers : ∀ other, other ∈ others reference available ↔
          other ∈ others reference available' := by
        intro other
        simp [others, havailable]
      rw [dif_pos hreference, dif_pos ((havailable reference).1 hreference)]
      rcases rel_iff.1 (rel_definition? hdefinitions reference) with
        ⟨hx, hy⟩ | ⟨x, y, hx, hy, hxy⟩
      · rw [hx, hy]
        exact .none
      · rw [hx, hy]
        exact .some (ih reference hreference x hothers hxy)
    · rw [dif_neg hreference, dif_neg (mt (havailable reference).2 hreference)]
      exact .none

theorem sameMembers_definitions (h : Reordered v w) :
    SameMembers Reordered (definitions v) (definitions w) := by
  unfold definitions
  refine rel_getD ?_ .nil
  rcases rel_iff.1 (h.rel_getFields? "$defs") with ⟨hx, hy⟩ | ⟨xs, ys, hx, hy, hxy⟩
  · rw [hx, hy]
    exact h.rel_getFields? "definitions"
  · rw [hx, hy]
    exact .some hxy

theorem reordered_resolveReferences (h : Reordered v w) :
    Reordered (resolveReferences v) (resolveReferences w) :=
  reordered_expand (sameMembers_definitions h) (mem_references_iff h) h

end SchemaForm.Schema
