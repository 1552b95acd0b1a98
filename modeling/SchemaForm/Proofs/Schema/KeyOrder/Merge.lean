import SchemaForm.Proofs.Schema.KeyOrder.Location
import SchemaForm.Proofs.Schema.Merge

/-!
# Merging and the order of keywords

Merging goes through the keywords of the second schema in their order, and writes each into the
first. No two of these writes are under one keyword, so the order makes no difference but to the
order of the result; and the values themselves are joined by rules that compare values without
regard to the order of members.
-/

namespace SchemaForm.Schema

open Json Entries

variable {a a' : Option Json} {b b' : Json}

/-! ### Values that hold no schema to merge -/

theorem reordered_elements (h : Option.Rel Reordered a a') :
    List.Forall₂ Reordered ((a.bind Json.items?).getD []) ((a'.bind Json.items?).getD []) :=
  rel_getD (rel_bind h fun _ _ => Congruent.rel_items?) .nil

theorem reordered_asList (h : Reordered b b') :
    List.Forall₂ Reordered (asList b) (asList b') := by
  have h' := h
  cases h using Congruent.kinds with
  | arr xs ys h => exact h
  | _ => exact .cons h' .nil

theorem reordered_ofList {xs ys : List Json} (h : List.Forall₂ Reordered xs ys) :
    Reordered (ofList xs) (ofList ys) := by
  cases h with
  | nil => exact Congruent.arr_iff.2 .nil
  | cons hxy hrest =>
    cases hrest with
    | nil => exact hxy
    | cons hxy' hrest => exact Congruent.arr_iff.2 (.cons hxy (.cons hxy' hrest))

theorem reordered_filter {p q : Json → Bool} (hpq : ∀ x y, Reordered x y → p x = q y)
    {xs ys : List Json} (h : List.Forall₂ Reordered xs ys) :
    List.Forall₂ Reordered (xs.filter p) (ys.filter q) := by
  refine List.rel_filter ?_ h
  intro x y hxy
  show p x = true ↔ q y = true
  rw [hpq x y hxy]

theorem reordered_mergeTypes (ha : Option.Rel Reordered a a') (hb : Reordered b b') :
    Reordered (mergeTypes a b) (mergeTypes a' b') := by
  cases ha with
  | none => exact hb
  | some ha =>
    refine reordered_ofList (reordered_filter ?_ (reordered_asList ha))
    intro x y hxy
    exact memberOf_eq hxy (reordered_asList hb)

theorem reordered_mergeNames (ha : Option.Rel Reordered a a') (hb : Reordered b b') :
    Reordered (mergeNames a b) (mergeNames a' b') := by
  have hnames : List.Forall₂ Reordered (b.items?.getD []) (b'.items?.getD []) :=
    rel_getD hb.rel_items? .nil
  refine Congruent.arr_iff.2 (List.rel_foldl ?_ (reordered_elements ha) hnames)
  intro names names' hnames name name' hname
  dsimp only
  rw [memberOf_eq hname hnames]
  split
  · exact hnames
  · exact List.rel_append hnames (.cons hname .nil)

theorem reordered_mergeNamesByName (ha : Option.Rel Reordered a a') (hb : Reordered b b') :
    Reordered (mergeNamesByName a b) (mergeNamesByName a' b') := by
  have hb' := hb
  cases hb using Congruent.kinds with
  | obj lists lists' h =>
    refine Congruent.obj_iff.2 ((sameMembers_membersOf ha).foldl_insert h ?_)
    intro u u' v v' hu hv
    exact reordered_mergeNames hu hv
  | _ => exact hb'

theorem reordered_mergeOptions (ha : Option.Rel Reordered a a') (hb : Reordered b b') :
    Reordered (mergeOptions a b) (mergeOptions a' b') := by
  have hb' := hb
  cases ha with
  | none => exact hb
  | some ha =>
    cases ha using Congruent.kinds with
    | arr xs xs' hxs =>
      cases hb using Congruent.kinds with
      | arr ys ys' hys =>
        refine Congruent.arr_iff.2 (reordered_filter ?_ hxs)
        intro x x' hx
        exact any_eq (fun _ _ hy => equiv_eq hx.equiv (Reordered.equiv hy)) hys
      | _ => exact hb'
    | _ => exact hb

theorem reordered_mergeBound {tighter : Binary64 → Binary64 → Bool}
    (htighter : ∀ x x' y y' : Binary64, x.units = x'.units → y.units = y'.units →
      tighter x y = tighter x' y')
    (ha : Option.Rel Reordered a a') (hb : Reordered b b') :
    Reordered (mergeBound tighter a b) (mergeBound tighter a' b') := by
  cases ha with
  | none => exact hb
  | @some u u' hu =>
    unfold mergeBound
    dsimp only [Option.bind_some]
    rcases rel_iff.1 hu.rel_double? with ⟨hx, hx'⟩ | ⟨x, x', hx, hx', hxx'⟩
    · rw [hx, hx']
      exact hb
    · rcases rel_iff.1 hb.rel_double? with ⟨hy, hy'⟩ | ⟨y, y', hy, hy', hyy'⟩
      · rw [hx, hx', hy, hy']
        exact hb
      · rw [hx, hx', hy, hy']
        dsimp only
        rw [htighter x x' y y' hxx' hyy']
        split
        · exact hu
        · exact hb

theorem rel_mergeValue (rule : MergeRule) (ha : Option.Rel Reordered a a') (hb : Reordered b b') :
    Option.Rel Reordered (mergeValue rule a b) (mergeValue rule a' b') := by
  cases rule with
  | types => exact .some (reordered_mergeTypes ha hb)
  | names => exact .some (reordered_mergeNames ha hb)
  | namesByName => exact .some (reordered_mergeNamesByName ha hb)
  | options => exact .some (reordered_mergeOptions ha hb)
  | lowerBound =>
    refine .some (reordered_mergeBound ?_ ha hb)
    intro x x' y y' hx hy
    simp [Binary64.le, hx, hy]
  | upperBound =>
    refine .some (reordered_mergeBound ?_ ha hb)
    intro x x' y y' hx hy
    simp [Binary64.le, hx, hy]
  | first =>
    cases ha with
    | none => exact .some hb
    | some _ => exact .none
  | schemasByName => exact .some hb
  | schema => exact .some hb
  | last => exact .some hb

/-! ### Merging -/

/-- Merged into schemas that differ in nothing but the order of members, so do the results. -/
def MergesAlike (b b' : Json) : Prop :=
  ∀ a a' : Json, Reordered a a' → Reordered (merge a b) (merge a' b')

/-- The same for the value of a keyword, by any rule. -/
def JoinsAlike (b b' : Json) : Prop :=
  ∀ (rule : MergeRule) (a a' : Option Json), Option.Rel Reordered a a' →
    Option.Rel Reordered (mergeJoined rule a b) (mergeJoined rule a' b')

theorem merge_of_not_obj (hb : b.isObj = false) (a : Json) : merge a b = a := by
  cases b with
  | obj entries => cases hb
  | _ => cases a <;> simp [merge]

theorem mergeJoined_of_not_obj (hb : b.isObj = false) (rule : MergeRule) (a : Option Json) :
    mergeJoined rule a b = mergeValue rule a b := by
  cases b with
  | obj entries => cases hb
  | _ => simp [mergeJoined]

/-- Of a keyword that holds a schema the values are merged as schemas are. -/
theorem mergeJoined_schema (a : Option Json) (entries : Fields) :
    mergeJoined .schema a (.obj entries) =
      some (a.elim (.obj entries) fun v => merge v (.obj entries)) := by
  cases a with
  | none => simp [mergeJoined, mergeValue]
  | some v => cases v <;> simp [mergeJoined, mergeValue, merge]

theorem alike_of_not_obj (h : Reordered b b') (hb : b.isObj = false) (hb' : b'.isObj = false) :
    MergesAlike b b' ∧ JoinsAlike b b' := by
  constructor
  · intro a a' ha
    rw [merge_of_not_obj hb, merge_of_not_obj hb']
    exact ha
  · intro rule a a' ha
    rw [mergeJoined_of_not_obj hb, mergeJoined_of_not_obj hb']
    exact rel_mergeValue rule ha h

section

variable {acc acc' xs ys : Fields}

theorem sameMembers_mergeKeywords (hacc : SameMembers Reordered acc acc')
    (h : SameMembers (fun x y => Reordered x y ∧ JoinsAlike x y) xs ys) :
    SameMembers Reordered (mergeKeywords acc xs) (mergeKeywords acc' ys) := by
  have hmembers : SameMembers Reordered xs ys := h.mono fun _ _ h => h.1
  have hxs := (Congruent.membersUnique hmembers).values
  have hys := (Congruent.membersUnique' hmembers).values
  refine ⟨?_, ?_, fun keyword => ?_⟩
  · exact (keysUnique_merge.2.1 acc xs (Congruent.membersUnique hacc) hxs).nodup
  · exact (keysUnique_merge.2.1 acc' ys (Congruent.membersUnique' hacc) hys).nodup
  · rw [get?_mergeKeywords h.nodup, get?_mergeKeywords h.nodup']
    rcases rel_iff.1 (h.values keyword) with ⟨hx, hy⟩ | ⟨x, y, hx, hy, -, hjoins⟩
    · rw [hx, hy]
      exact hacc.values keyword
    · rw [hx, hy, joined, joined]
      rcases rel_iff.1 (hjoins (mergeRule keyword) _ _ (hacc.values keyword)) with
        ⟨hv, hw⟩ | ⟨v, w, hv, hw, hvw⟩
      · rw [hv, hw]
        exact hacc.values keyword
      · rw [hv, hw]
        exact .some hvw

theorem sameMembers_mergeNamed (hacc : SameMembers Reordered acc acc')
    (h : SameMembers (fun x y => Reordered x y ∧ MergesAlike x y) xs ys) :
    SameMembers Reordered (mergeNamed acc xs) (mergeNamed acc' ys) := by
  have hmembers : SameMembers Reordered xs ys := h.mono fun _ _ h => h.1
  have hxs := (Congruent.membersUnique hmembers).values
  have hys := (Congruent.membersUnique' hmembers).values
  refine ⟨?_, ?_, fun name => ?_⟩
  · exact (keysUnique_merge.2.2.2 acc xs (Congruent.membersUnique hacc) hxs).nodup
  · exact (keysUnique_merge.2.2.2 acc' ys (Congruent.membersUnique' hacc) hys).nodup
  · rw [get?_mergeNamed h.nodup, get?_mergeNamed h.nodup']
    rcases rel_iff.1 (h.values name) with ⟨hx, hy⟩ | ⟨x, y, hx, hy, hxy, hmerges⟩
    · rw [hx, hy]
      exact hacc.values name
    · rw [hx, hy, mergeOpt, mergeOpt]
      rcases rel_iff.1 (hacc.values name) with ⟨hu, hv⟩ | ⟨u, v, hu, hv, huv⟩
      · rw [hu, hv]
        exact .some hxy
      · rw [hu, hv]
        exact .some (hmerges u v huv)

theorem alike_obj
    (h : SameMembers (fun x y => Reordered x y ∧ MergesAlike x y ∧ JoinsAlike x y) xs ys) :
    MergesAlike (.obj xs) (.obj ys) ∧ JoinsAlike (.obj xs) (.obj ys) := by
  have hobj : Reordered (.obj xs) (.obj ys) := Congruent.obj_iff.2 (h.mono fun _ _ h => h.1)
  have hmerges : MergesAlike (.obj xs) (.obj ys) := by
    intro a a' ha
    cases ha using Congruent.kinds with
    | obj acc acc' hacc =>
      rw [merge, merge]
      exact Congruent.obj_iff.2
        (sameMembers_mergeKeywords hacc (h.mono fun _ _ h => ⟨h.1, h.2.2⟩))
    | _ => simpa [merge] using hobj
  refine ⟨hmerges, ?_⟩
  intro rule a a' ha
  by_cases hnamed : rule = .schemasByName
  · subst hnamed
    rw [mergeJoined, mergeJoined]
    exact .some (Congruent.obj_iff.2
      (sameMembers_mergeNamed (sameMembers_membersOf ha) (h.mono fun _ _ h => ⟨h.1, h.2.1⟩)))
  · by_cases hschema : rule = .schema
    · subst hschema
      rw [mergeJoined_schema, mergeJoined_schema]
      cases ha with
      | none => exact .some hobj
      | some hu => exact .some (hmerges _ _ hu)
    · rw [mergeJoined_of_mergeValue hnamed hschema, mergeJoined_of_mergeValue hnamed hschema]
      exact rel_mergeValue rule ha hobj

end

theorem alike_of_reordered (h : Reordered b b') : MergesAlike b b' ∧ JoinsAlike b b' := by
  induction h using Congruent.induct with
  | null => exact alike_of_not_obj .null rfl rfl
  | bool flag => exact alike_of_not_obj (.bool flag) rfl rfl
  | num m n h => exact alike_of_not_obj (.num h) rfl rfl
  | str s => exact alike_of_not_obj (.str s) rfl rfl
  | arr xs ys h =>
    exact alike_of_not_obj (Congruent.arr_iff.2 (h.imp fun _ _ h => h.1)) rfl rfl
  | obj xs ys h => exact alike_obj (h.mono fun _ _ ⟨hxy, ih⟩ => ⟨hxy, ih⟩)

/-- Merging does not depend on the order of members. -/
theorem reordered_merge {a a' : Json} (ha : Reordered a a') (hb : Reordered b b') :
    Reordered (merge a b) (merge a' b') :=
  (alike_of_reordered hb).1 a a' ha

/-! ### Flattening -/

theorem sameMembers_absorb {acc acc' : Fields} (hacc : SameMembers Reordered acc acc')
    (hb : Reordered b b') : SameMembers Reordered (absorb acc b) (absorb acc' b') := by
  have hmerged := reordered_merge (Congruent.obj_iff.2 hacc) hb
  rw [merge_obj, merge_obj] at hmerged
  exact Congruent.obj_iff.1 hmerged

theorem reordered_absorbParts {xs ys : Fields} (h : SameMembers Reordered xs ys) :
    Reordered (absorbParts xs) (absorbParts ys) := by
  have hrest := h.swapErase "allOf"
  have hparts := h.values "allOf"
  unfold absorbParts
  generalize Entries.get? "allOf" xs = parts at hparts ⊢
  generalize Entries.get? "allOf" ys = parts' at hparts ⊢
  cases hparts with
  | none => exact Congruent.obj_iff.2 hrest
  | some hvalue =>
    cases hvalue using Congruent.kinds with
    | arr parts parts' hparts =>
      refine Congruent.obj_iff.2 (List.rel_foldl ?_ hrest hparts)
      intro acc acc' hacc part part' hpart
      exact sameMembers_absorb hacc hpart
    | _ => exact Congruent.obj_iff.2 hrest

theorem reordered_flatten (h : Reordered b b') : Reordered (flatten b) (flatten b') :=
  reordered_bottomUp (fun _ _ => reordered_absorbParts) h

end SchemaForm.Schema
