import SchemaForm.Proofs.Pipeline.Branch
import SchemaForm.Proofs.Pipeline.Rebuild

/-!
# Choosing the branch that fits

A branch of the root that fits the data is merged while the tree is built, and the root keeps its
own schema; a chosen branch stands in the place of that schema before the tree is built. The fields
below the root are the same either way. Their values are, and the data with defaults filled in, as
long as the same is filled in at the two roots.
-/

namespace SchemaForm

namespace FieldTree

open Json Schema

/-! ### What the tree reads of the pinned choices -/

theorem node_congr [Patterns] {pinned other : SortedMap Combinator} {path : String}
    (h : pinned.get? path = other.get? path) (schema : Json) (data : Option Json)
    (origin : Origin) (required : Bool) (children : List String) :
    node pinned schema data path origin required children =
      node other schema data path origin required children := by
  unfold node
  rw [h]

/-- The same choices are pinned below a path. -/
abbrev PinnedAlike (pinned other : SortedMap Combinator) : String → Prop :=
  Pointer.AllBelow fun path => pinned.get? path = other.get? path

/-- A child reads the choices that are pinned at its path and below it. -/
theorem child_congr [Patterns] {pinned other : SortedMap Combinator} {path segment : String}
    (h : PinnedAlike pinned other path) {schema : Json} {data : Option Json}
    (hbelow : PinnedAlike pinned other (Pointer.append path segment) →
      below pinned schema data (Pointer.append path segment) =
        below other schema data (Pointer.append path segment))
    (origin : Origin) (required : Bool) :
    (below pinned schema data (Pointer.append path segment)).2 ++
        [node pinned schema data (Pointer.append path segment) origin required
          (below pinned schema data (Pointer.append path segment)).1] =
      (below other schema data (Pointer.append path segment)).2 ++
        [node other schema data (Pointer.append path segment) origin required
          (below other schema data (Pointer.append path segment)).1] := by
  obtain ⟨hchild, hchildren⟩ := h.append segment
  rw [hbelow hchildren, node_congr hchild]

/-- The fields below a path read the choices that are pinned there. -/
theorem below_congr [Patterns] (pinned other : SortedMap Combinator) :
    (∀ schema data path, PinnedAlike pinned other path →
      below pinned schema data path = below other schema data path) ∧
    (∀ schemas rest items path index, PinnedAlike pinned other path →
      belowItems pinned schemas rest items path index =
        belowItems other schemas rest items path index) ∧
    (∀ required properties data path, PinnedAlike pinned other path →
      belowProperties pinned required properties data path =
        belowProperties other required properties data path) := by
  apply below.mutual_induct pinned
    (fun schema data path => PinnedAlike pinned other path →
      below pinned schema data path = below other schema data path)
    (fun schemas rest items path index => PinnedAlike pinned other path →
      belowItems pinned schemas rest items path index =
        belowItems other schemas rest items path index)
    (fun required properties data path => PinnedAlike pinned other path →
      belowProperties pinned required properties data path =
        belowProperties other required properties data path)
  case case1 =>
    intro schema data path kind options hbranches option hfits ih h
    rw [below_of_branch hbranches hfits, below_of_branch hbranches hfits, ih h]
  case case2 =>
    intro schema data path kind options hbranches hfits _
    rw [below_of_no_fit hbranches hfits, below_of_no_fit hbranches hfits]
  case case3 =>
    intro schema data path hbranches ihProperties ihItems h
    rw [below_of_no_branches hbranches, below_of_no_branches hbranches]
    have hproperties : propertiesBelow pinned schema data path =
        propertiesBelow other schema data path := by
      unfold propertiesBelow
      cases hfields : schema.getFields? "properties" with
      | none => rfl
      | some properties =>
        dsimp only
        rw [ihProperties properties hfields h]
    have hitems : itemsBelow pinned schema data path = itemsBelow other schema data path := by
      unfold itemsBelow
      cases hfound : data.bind items? with
      | none => rfl
      | some items =>
        dsimp only
        rw [ihItems items hfound h]
    rw [hproperties, hitems]
  case case4 =>
    intro schemas rest path index _
    rw [belowItems_nil, belowItems_nil]
  case case5 =>
    intro rest path index item items childPath schema schemas children found _ ih ihRest h
    rw [belowItems_cons, belowItems_cons]
    exact congrArg₂ join (congrArg _ (child_congr h ih _ _)) (ihRest h)
  case case6 =>
    intro rest path index item items childPath children found _ ih ihRest h
    rw [belowItems_cons, belowItems_cons]
    exact congrArg₂ join (congrArg _ (child_congr h ih _ _)) (ihRest h)
  case case7 =>
    intro required data path _
    rw [belowProperties_nil, belowProperties_nil]
  case case8 =>
    intro required data path name schema rest childPath member children found _ ih ihRest h
    rw [belowProperties_cons, belowProperties_cons]
    exact congrArg₂ join (congrArg _ (child_congr h ih _ _)) (ihRest h)

/-- The fields below the root are those that stand elsewhere in the index. -/
theorem get?_build_of_ne [Patterns] {path : String} (h : path ≠ "") (pinned : SortedMap Combinator)
    (schema : Json) (data : Option Json) :
    (build pinned schema data).get? path = nodeAt path (below pinned schema data "").2 := by
  rw [build, SortedMap.get?_ofList]
  refine nodeAt_append_of_right_none (nodeAt_eq_none fun n hn => ?_)
  rw [List.mem_singleton.1 hn]
  exact h.symm

end FieldTree

namespace Defaults

open FieldTree Json

/-! ### Seeding forms that differ at the root -/

/-- At fields with the same children the same is filled in if their types include objects and arrays
alike, and absent data get the same default. -/
theorem filling_eq_of_types {node other : FieldNode} {data : Option Json}
    (hchildren : node.children = other.children)
    (hobject : node.type.includes .object = other.type.includes .object)
    (harray : node.type.includes .array = other.type.includes .array)
    (hdefault : data = none → node.schema.get? "default" = other.schema.get? "default") :
    filling node data = filling other data := by
  have hgiven : given node data = given other data := by
    cases data with
    | some v => rfl
    | none => exact hdefault rfl
  have helements : servedElements? node data = servedElements? other data := by
    rw [servedElements?, servedElements?, harray, hchildren, hgiven]
  rw [filling, filling, servesMembers, servesMembers, hobject, hchildren, hgiven, helements]

/-- Both forms have a root, and they have the same fields elsewhere. -/
structure AlikeBelowRoot (index other : FieldIndex) : Prop where
  root : index.contains "" = true
  root' : other.contains "" = true
  below : ∀ path, path ≠ "" → index.get? path = other.get? path

variable {index other : FieldIndex}

theorem AlikeBelowRoot.size_eq (h : AlikeBelowRoot index other) : index.size = other.size := by
  apply SortedMap.size_eq_of_isSome_eq
  intro path
  by_cases hpath : path = ""
  · subst hpath
    exact h.root.trans h.root'.symm
  · rw [h.below path hpath]

theorem AlikeBelowRoot.fill_eq (h : AlikeBelowRoot index other) (hnested : Nested index)
    {path : String} (hpath : path ≠ "") (data : Option Json) :
    fill index path data = fill other path data := by
  rw [fill, fill, h.size_eq]
  refine seedAt_eq_of_form (p := (· ≠ "")) ?_ ?_ other.size hpath data
  · intro path hpath
    rw [h.below path hpath]
  · intro path node _ hnode child hchild
    obtain ⟨segment, rfl⟩ := hnested path node hnode child hchild
    exact Pointer.append_ne_empty path segment

/-- If the same is filled in at the roots, it is everywhere. -/
theorem AlikeBelowRoot.fill_root_eq (h : AlikeBelowRoot index other) (hnested : Nested index)
    (hnested' : Nested other) {n m : FieldNode} (hn : index.get? "" = some n)
    (hm : other.get? "" = some m) (hchildren : n.children = m.children) {data : Option Json}
    (hfilling : filling n data = filling m data) : fill index "" data = fill other "" data := by
  rw [fill_of_some hnested hn, fill_of_some hnested' hm, seedField_eq_seeded, seedField_eq_seeded,
    ← hfilling, ← hchildren]
  refine Filling.seeded_congr (fun child hchild data => h.fill_eq hnested ?_ data) "" _
  obtain ⟨segment, rfl⟩ := hnested "" n hn child hchild
  exact Pointer.append_ne_empty "" segment

end Defaults

namespace Pipeline

open Defaults FieldTree Json Schema Selection

/-! ### One choice at the root -/

theorem unchosenBelow_root (index : Nat) :
    UnchosenBelow (SortedMap.empty.insert "" index) "" :=
  Pointer.allBelow_empty fun path hpath => by
    rw [SortedMap.get?_insert, if_neg hpath.symm, SortedMap.get?_empty]

variable {fields : Fields} {kind : CombinatorKind} {options : List Json} {option : Json}
  {index : Nat}

/-- Choosing a branch of the root puts it in the place of the root's combinator, and does nothing
else. -/
theorem resolve_root (hbranches : branches? fields = some (kind, options))
    (hoption : options[index]? = some option) :
    resolve (SortedMap.empty.insert "" index) (.obj fields) "" =
      (.obj (absorb (Entries.eraseAll combinatorKeywords fields) option),
        [⟨"", Combinator.pinned kind options index⟩]) := by
  have hchoose : choose (SortedMap.empty.insert "" index) "" fields =
      (absorb (Entries.eraseAll combinatorKeywords fields) option,
        [⟨"", Combinator.pinned kind options index⟩]) := by
    rw [choose, chosen?, hbranches, SortedMap.get?_insert_self]
    dsimp only
    rw [hoption]
    rfl
  rw [resolve_obj, hchoose, (resolve_of_unchosen _).2.1 _ "" (unchosenBelow_root index)]
  rfl

/-- Below the root stands the same, whether its branch is chosen or fits the data. -/
theorem below_chosen_root [Patterns] {data : Option Json}
    (hbranches : branches? fields = some (kind, options))
    (hoption : options[index]? = some option) (hfits : fittingBranch? options data = some option) :
    below (pinnedCombinators (SortedMap.empty.insert "" index) (.obj fields))
        (chosenSchema (SortedMap.empty.insert "" index) (.obj fields)) data "" =
      below .empty (.obj fields) data "" := by
  have hoffer : branches? (membersOf (some (.obj fields))) = some (kind, options) := hbranches
  rw [below_of_branch hoffer hfits, chosenSchema_eq, pinnedCombinators_eq,
    resolve_root hbranches hoption]
  refine (below_congr _ _).1 _ data "" (Pointer.allBelow_empty fun path hpath => ?_)
  rw [SortedMap.get?_ofList, SortedMap.get?_empty]
  exact if_neg hpath.symm

/-- The branch in force at the root is the first one that fits the data. -/
theorem fits_of_activeBranch? [Patterns] {prepared : Json} {data : Option Json}
    (h : (plainModel prepared data .empty).root?.bind FieldNode.activeBranch? = some index) :
    ∃ fields kind options option, situated prepared data = .obj fields ∧
      branches? fields = some (kind, options) ∧ options[index]? = some option ∧
      fittingBranch? options data = some option := by
  obtain ⟨value, hroot⟩ := root?_plainModel prepared data .empty
  rw [hroot, Option.bind_some, FieldNode.activeBranch?] at h
  change ((ownCombinator? (situated prepared data) data).orElse fun _ => none).bind _ = _ at h
  unfold ownCombinator? at h
  cases hbranches : branches? (membersOf (some (situated prepared data))) with
  | none =>
    rw [hbranches] at h
    cases h
  | some offer =>
    obtain ⟨kind, options⟩ := offer
    rw [hbranches] at h
    have hactive : (Combinator.fitting (fun option => accepts option data) options).head? =
        some index := h
    obtain ⟨⟨option, hoption, -⟩, -⟩ := Combinator.head?_fitting_eq_some_iff.1 hactive
    have hfits := Combinator.find?_eq_of_head?_fitting hactive
    cases hschema : situated prepared data with
    | obj fields =>
      rw [hschema] at hbranches
      exact ⟨fields, kind, options, option, rfl, hbranches, hoption, hfits.trans hoption⟩
    | _ =>
      rw [hschema] at hbranches
      cases hbranches

theorem alikeBelowRoot_plainIndex [Patterns] {prepared : Json} {data : Option Json}
    {selections other : Selections}
    (h : below (pinnedCombinators selections (situated prepared data))
        (chosenSchema selections (situated prepared data)) data "" =
      below (pinnedCombinators other (situated prepared data))
        (chosenSchema other (situated prepared data)) data "") :
    AlikeBelowRoot (plainIndex prepared data selections) (plainIndex prepared data other) where
  root := SortedMap.contains_iff.2 ⟨_, get?_build_root _ _⟩
  root' := SortedMap.contains_iff.2 ⟨_, get?_build_root _ _⟩
  below path hpath := by
    rw [plainIndex, plainIndex, get?_build_of_ne hpath, get?_build_of_ne hpath, h]

theorem chosenSchema_branchesOf (branch : Json) :
    chosenSchema (SortedMap.empty.insert "" 0) (branchesOf [branch]) = .obj (absorb [] branch) := by
  rw [chosenSchema_eq]
  exact congrArg Prod.fst (resolve_root rfl rfl)

/-- A root without children keeps its data, or else takes the default of its schema. -/
theorem data_plainModel_of_childless [Patterns] {prepared : Json} {data : Option Json}
    {selections : Selections}
    (h : (below (pinnedCombinators selections (situated prepared data))
      (chosenSchema selections (situated prepared data)) data "").1 = []) :
    (plainModel prepared data selections).data =
      data.orElse fun _ => (chosenSchema selections (situated prepared data)).get? "default" := by
  have hroot : (plainIndex prepared data selections).get? "" = some _ := get?_build_root _ data
  rw [h] at hroot
  have hmembers : servesMembers (node (pinnedCombinators selections (situated prepared data))
      (chosenSchema selections (situated prepared data)) data "" .root false []) = false :=
    Bool.and_false _
  rw [data_plainModel, fill_of_some (nested_plainIndex _ _ _) hroot,
    seedField_of_kept hmembers (if_neg (by simp [node]))]
  rfl

/-- Choosing the branch of the root that is in force leaves the children of the root and all fields
below it as they are, up to their values. Where the same is filled in at the two roots, the values
below and the data are the same too. -/
theorem choosing_activeBranch [Patterns] (schema : Json) (data : Option Json) (index : Nat) :
    ∃ free chosen,
      run .default schema data .empty = .ok free ∧
      run .default schema data (SortedMap.empty.insert "" index) = .ok chosen ∧
      (free.root?.bind FieldNode.activeBranch? = some index →
        ∃ n m, free.root? = some n ∧ chosen.root? = some m ∧ m.children = n.children ∧
          (∀ path, path ≠ "" → (chosen.get? path).map form = (free.get? path).map form) ∧
          (filling n data = filling m data →
            chosen.data = free.data ∧
              ∀ path, path ≠ "" → chosen.get? path = free.get? path)) := by
  refine ⟨_, _, run_default _ _ _, run_default _ _ _, fun hactive => ?_⟩
  obtain ⟨fields, kind, options, option, hsituated, hbranches, hoption, hfits⟩ :=
    fits_of_activeBranch? hactive
  have hbelow : below (pinnedCombinators .empty (situated (Schema.prepare schema) data))
        (chosenSchema .empty (situated (Schema.prepare schema) data)) data "" =
      below (pinnedCombinators (SortedMap.empty.insert "" index)
          (situated (Schema.prepare schema) data))
        (chosenSchema (SortedMap.empty.insert "" index) (situated (Schema.prepare schema) data))
        data "" := by
    rw [hsituated, below_chosen_root hbranches hoption hfits]
    rfl
  have hchildren := congrArg Prod.fst hbelow
  have halike := alikeBelowRoot_plainIndex hbelow
  have hform := sameForm_plainModel (Schema.prepare schema) data .empty
  have hform' := sameForm_plainModel (Schema.prepare schema) data
    (SortedMap.empty.insert "" index)
  obtain ⟨value, hroot⟩ := root?_plainModel (Schema.prepare schema) data .empty
  obtain ⟨value', hroot'⟩ := root?_plainModel (Schema.prepare schema) data
    (SortedMap.empty.insert "" index)
  refine ⟨_, _, hroot, hroot', hchildren.symm, fun path hpath => ?_, fun hfilling => ?_⟩
  · rw [FormModel.get?, FormModel.get?, hform, hform', halike.below path hpath]
  have hfill := halike.fill_root_eq (nested_plainIndex _ _ _) (nested_plainIndex _ _ _)
    (get?_build_root _ _) (get?_build_root _ _) hchildren hfilling
  constructor
  · rw [data_plainModel, data_plainModel, hfill]
  · intro path hpath
    rw [FormModel.get?, FormModel.get?, index_plainModel, index_plainModel, seededIndex,
      seededIndex, get?_assign, get?_assign, hfill, halike.below path hpath]

theorem choosing_activeBranch_property :
    ∃ free chosen,
      run .default (branchesOf [.obj onePropertyFields]) (some .empty) .empty = .ok free ∧
      run .default (branchesOf [.obj onePropertyFields]) (some .empty)
        (SortedMap.empty.insert "" 0) = .ok chosen ∧
      free.root?.bind FieldNode.activeBranch? = some 0 ∧ chosen.data = free.data ∧
      ∀ path, path ≠ "" → chosen.get? path = free.get? path := by
  obtain ⟨free, chosen, hfree, hchosen, h⟩ :=
    choosing_activeBranch (branchesOf [.obj onePropertyFields]) (some .empty) 0
  refine ⟨free, chosen, hfree, hchosen, ?_⟩
  have hprepare : Schema.prepare (branchesOf [.obj onePropertyFields]) =
      branchesOf [.obj onePropertyFields] := prepare_eq_self rfl rfl rfl rfl
  obtain rfl := eq_plainModel_of_run hprepare hfree
  obtain rfl := eq_plainModel_of_run hprepare hchosen
  have hactive : (plainModel (branchesOf [.obj onePropertyFields]) (some .empty) .empty).root?.bind
      FieldNode.activeBranch? = some 0 := by
    rw [activeBranch?_branchesOf ⟨_, keysUnique_onePropertyFields⟩]
    rfl
  obtain ⟨n, m, hn, hm, -, -, hsame⟩ := h hactive
  refine ⟨hactive, hsame ?_⟩
  obtain ⟨value, hroot⟩ := root?_plainModel (branchesOf [.obj onePropertyFields]) (some .empty)
    .empty
  obtain ⟨value', hroot'⟩ := root?_plainModel (branchesOf [.obj onePropertyFields]) (some .empty)
    (SortedMap.empty.insert "" 0)
  rw [hroot, situated_branchesOf] at hn
  rw [hroot', situated_branchesOf] at hm
  cases hn
  cases hm
  -- The merged branch is an object by its properties, and the root itself is one by the data.
  have hmerged := chosenSchema_branchesOf (.obj onePropertyFields)
  refine filling_eq_of_types ?_ ?_ ?_ fun hnone => by cases hnone
  · exact congrArg Prod.fst (below_chosen_root rfl rfl rfl).symm
  · show _ = (fieldType (chosenSchema _ _) _).includes .object
    rw [hmerged]
    rfl
  · show _ = (fieldType (chosenSchema _ _) _).includes .array
    rw [hmerged]
    rfl

/-- The default of a branch reaches the root once the branch is chosen, and not while it fits. -/
theorem chosen_branch_brings_default :
    ∃ free chosen,
      run .default (branchesOf [defaultAlone]) none .empty = .ok free ∧
      run .default (branchesOf [defaultAlone]) none (SortedMap.empty.insert "" 0) = .ok chosen ∧
      free.root?.bind FieldNode.activeBranch? = some 0 ∧
      free.data = none ∧ chosen.data = some (int 1) := by
  refine ⟨_, _, run_default _ _ _, run_default _ _ _, ?_⟩
  have hprepare : Schema.prepare (branchesOf [defaultAlone]) = branchesOf [defaultAlone] :=
    prepare_eq_self rfl rfl rfl rfl
  have hbelow : below .empty (branchesOf [defaultAlone]) none "" = ([], []) := by
    rw [below_of_branch (rfl : branches? _ = some (.oneOf, [defaultAlone]))
      (rfl : fittingBranch? _ none = some defaultAlone), below_of_no_branches rfl]
    rfl
  have hbelow' : below (pinnedCombinators (SortedMap.empty.insert "" 0) (branchesOf [defaultAlone]))
      (chosenSchema (SortedMap.empty.insert "" 0) (branchesOf [defaultAlone])) none "" =
        ([], []) :=
    (below_chosen_root rfl rfl rfl).trans hbelow
  rw [hprepare]
  refine ⟨?_, ?_, ?_⟩
  · rw [activeBranch?_branchesOf ⟨defaultAlone, by simp [defaultAlone]⟩]
    rfl
  · rw [data_plainModel_of_childless, situated_branchesOf]
    · rfl
    · rw [situated_branchesOf]
      exact congrArg Prod.fst hbelow
  · rw [data_plainModel_of_childless, situated_branchesOf, chosenSchema_branchesOf]
    · rfl
    · rw [situated_branchesOf]
      exact congrArg Prod.fst hbelow'

end Pipeline
end SchemaForm
