import SchemaForm.Proofs.Pipeline.Branch
import SchemaForm.Proofs.Schema.Prepare

/-!
# Choices that count for nothing

A choice takes effect where the pass over the selections meets a combinator that offers a branch of
its number, and other choices can be what brings the pass there. Main statement: a run with the
choices that took effect is the run with all of them, so a choice that takes none changes nothing
whatever else is chosen.
-/

namespace SchemaForm

/-- The stages before the tree is built. -/
def Stage.beforeTree : List Stage := Stage.all.takeWhile (· != .buildTree)

namespace Selection

open Json Schema

variable {selections : Selections}

/-- The pass comes to a path and is offered a branch of this number there. -/
def Offered (selections : Selections) (schema : Json) (path : String) (index : Nat) : Prop :=
  ∃ segments kind options, path = Pointer.build segments ∧
    (keywordsAt selections segments schema "").bind branches? = some (kind, options) ∧
    index < options.length

/-- The choice is one of the selections, for a branch that was offered. -/
def Pinned.OfSelection (selections : Selections) (found : Pinned) : Prop :=
  ∃ kind options index, selections.get? found.path = some index ∧ index < options.length ∧
    found.combinator = Combinator.pinned kind options index

theorem ofSelection_of_mem_choose {path : String} {fields : Fields} {found : Pinned}
    (h : found ∈ (choose selections path fields).2) : found.OfSelection selections := by
  obtain ⟨hpath, hchosen⟩ := mem_choose_iff.1 h
  obtain ⟨⟨option, combinator⟩, hchosen, hfound⟩ := Option.map_eq_some_iff.1 hchosen
  obtain ⟨kind, options, index, -, hindex, hoption, rfl⟩ := mem_of_chosen? hchosen
  obtain ⟨hlt, -⟩ := List.getElem?_eq_some_iff.1 hoption
  exact ⟨kind, options, index, hpath.symm ▸ hindex, hlt, hfound.symm⟩

/-- Every choice that the pass notes is one of the selections. -/
theorem ofSelection_of_mem_resolve (selections : Selections) :
    (∀ schema path, ∀ found ∈ (resolve selections schema path).2, found.OfSelection selections) ∧
    (∀ fields path, ∀ found ∈ (resolveBelow selections fields path).2,
      found.OfSelection selections) ∧
    (∀ properties path, ∀ found ∈ (resolveNamed selections properties path).2,
      found.OfSelection selections) := by
  apply resolve.mutual_induct selections
    (fun schema path => ∀ found ∈ (resolve selections schema path).2, found.OfSelection selections)
    (fun fields path => ∀ found ∈ (resolveBelow selections fields path).2,
      found.OfSelection selections)
    (fun properties path => ∀ found ∈ (resolveNamed selections properties path).2,
      found.OfSelection selections)
  case case1 =>
    intro path fields below more _ ih found hfound
    rw [resolve_obj] at hfound
    rcases List.mem_append.1 hfound with hfound | hfound
    · exact ofSelection_of_mem_choose hfound
    · exact ih found hfound
  case case2 =>
    intro schema path hschema found hfound
    rw [resolve_of_not_obj hschema] at hfound
    cases hfound
  case case3 =>
    intro path found hfound
    rw [resolveBelow_nil] at hfound
    cases hfound
  case case4 =>
    intro path keyword inner rest below more _ others evenMore _ ihNamed ihRest found hfound
    rw [resolveBelow_cons_obj] at hfound
    rcases List.mem_append.1 hfound with hfound | hfound
    · unfold resolveValue at hfound
      split at hfound
      · exact ihNamed found hfound
      · cases hfound
    · exact ihRest found hfound
  case case5 =>
    intro path keyword v rest hv others more _ ih found hfound
    rw [resolveBelow_cons_of_not_obj (fun inner heq => hv inner heq)] at hfound
    exact ih found hfound
  case case6 =>
    intro path found hfound
    rw [resolveNamed_nil] at hfound
    cases hfound
  case case7 =>
    intro path name schema rest resolved more _ others evenMore _ ih ihRest found hfound
    rw [resolveNamed_cons] at hfound
    rcases List.mem_append.1 hfound with hfound | hfound
    · exact ih found hfound
    · exact ihRest found hfound

/-- A choice that the pass notes was offered to it. -/
theorem offered_of_mem_resolve (schema : Document) {found : Pinned}
    (hfound : found ∈ (resolve selections schema "").2) {index : Nat}
    (hindex : selections.get? found.path = some index) :
    Offered selections schema found.path index := by
  obtain ⟨segments, hpath, hchoice⟩ :=
    ((mem_resolve_iff selections).1 schema "" schema.keysUnique found).1 hfound
  obtain ⟨kind, options, index', hoffer, hindex', hlt, -⟩ := choiceAt_eq_some_iff.1 hchoice
  rw [← hpath, hindex] at hindex'
  cases hindex'
  exact ⟨segments, kind, options, hpath.trans (Pointer.join_empty segments), hoffer, hlt⟩

theorem exists_mem_resolve_of_offered (schema : Document) {path : String} {index : Nat}
    (hindex : selections.get? path = some index)
    (hoffered : Offered selections schema path index) :
    ∃ found ∈ (resolve selections schema "").2, found.path = path := by
  obtain ⟨segments, kind, options, rfl, hoffer, hlt⟩ := hoffered
  have hchoice : choiceAt selections segments schema "" =
      some (Combinator.pinned kind options index) := by
    refine choiceAt_eq_some_iff.2 ⟨kind, options, index, hoffer, ?_, hlt, rfl⟩
    rw [Pointer.join_empty]
    exact hindex
  exact ⟨_, Pipeline.mem_resolve_build_iff.2 hchoice, rfl⟩

/-- With the choices that took effect the same choices take effect. -/
theorem agree_restrict {p : String → Bool} {choices : List Pinned}
    (h : ∀ found ∈ choices, p found.path = true) :
    Agree selections (selections.restrict p) choices := by
  intro found hfound
  rw [SortedMap.get?_restrict, if_pos (h found hfound)]

theorem agree_of_mem_restrict {p : String → Bool} {choices : List Pinned}
    (h : ∀ found ∈ choices, found.OfSelection (selections.restrict p)) :
    Agree selections (selections.restrict p) choices := by
  intro found hfound
  obtain ⟨-, -, index, hindex, -, -⟩ := h found hfound
  rw [SortedMap.get?_restrict] at hindex ⊢
  split at hindex
  · next hp => rw [if_pos hp]
  · cases hindex

end Selection

namespace Pipeline

open Json Schema Selection

/-- A pinned combinator is the one of a choice that the pass notes. -/
theorem mem_resolve_of_get?_pinnedCombinators {selections : Selections} {schema : Json}
    {path : String} {combinator : Combinator}
    (h : (pinnedCombinators selections schema).get? path = some combinator) :
    ⟨path, combinator⟩ ∈ (resolve selections schema "").2 := by
  rw [pinnedCombinators_eq, SortedMap.get?_ofList] at h
  obtain ⟨found, hfound, heq⟩ := List.mem_map.1 (List.mem_reverse.1 (SortedMap.mem_of_lookup h))
  obtain ⟨rfl, rfl⟩ := Prod.mk.inj heq
  exact hfound

/-- The pinned combinators stand at the paths of the choices that the pass notes. -/
theorem contains_pinnedCombinators_iff {selections : Selections} {schema : Json} {path : String} :
    (pinnedCombinators selections schema).contains path = true ↔
      ∃ found ∈ (resolve selections schema "").2, found.path = path := by
  constructor
  · intro h
    obtain ⟨combinator, hcombinator⟩ := SortedMap.contains_iff.1 h
    exact ⟨_, mem_resolve_of_get?_pinnedCombinators hcombinator, rfl⟩
  · rintro ⟨found, hfound, rfl⟩
    rw [SortedMap.contains_iff, pinnedCombinators_eq, SortedMap.get?_ofList,
      ← Option.ne_none_iff_exists', ne_eq, SortedMap.lookup_eq_none_iff]
    intro hnone
    exact hnone _ (List.mem_reverse.2 (List.mem_map_of_mem hfound)) rfl

/-- What the stages before the tree hand on to it. -/
theorem runStages_beforeTree [Patterns] (schema : Json) (data : Option Json)
    (selections : Selections) :
    ∃ c, runStages .default Stage.beforeTree { Context.start schema data with selections } =
        .ok c ∧
      c.schema = chosenSchema selections (situated (Schema.prepare schema) data) ∧
      c.data = data ∧
      c.pinned = pinnedCombinators selections (situated (Schema.prepare schema) data) := by
  refine ⟨_, runStages_default _ _, ?_⟩
  have hstages : Stage.beforeTree = [.normalize, .resolveRefs, .mergeAllOf,
      .evaluateConditionals, .evaluateDependents, .resolveCombinators] := rfl
  cases h : selections.isEmpty with
  | true =>
    simp only [hstages, List.foldl_cons, List.foldl_nil, Context.perform,
      Context.evaluateConditionals, Context.resolveCombinators, Context.start, chosenSchema,
      pinnedCombinators, situated, Schema.prepare, h, if_true, and_self]
  | false =>
    simp only [hstages, List.foldl_cons, List.foldl_nil, Context.perform,
      Context.evaluateConditionals, Context.resolveCombinators, Context.start, chosenSchema,
      pinnedCombinators, situated, Schema.prepare, h, Bool.false_eq_true, if_false, and_self]

/-- The choices that take effect are enough. -/
theorem run_restrict [Patterns] {schema : Json} {data : Option Json} {selections : Selections}
    {p : String → Bool}
    (h : ∀ found ∈ (resolve selections (situated (Schema.prepare schema) data) "").2,
      p found.path = true) :
    run .default schema data (selections.restrict p) = run .default schema data selections := by
  rw [run_default, run_default]
  have hrestricted : ∀ found ∈
      (resolve (selections.restrict p) (situated (Schema.prepare schema) data) "").2,
      found.OfSelection (selections.restrict p) :=
    (ofSelection_of_mem_resolve (selections.restrict p)).1 _ ""
  rw [plainModel_congr (agree_restrict h) (agree_of_mem_restrict hrestricted)]

/-- The choices that the pass notes are those that were offered to it, and a run with them alone is
the run with all choices. So is the run without one that was not offered. -/
theorem ineffective_choices_inert [Patterns] (schema : Document) (data : Option Json)
    (selections : Selections) :
    ∃ c m,
      runStages .default Stage.beforeTree { Context.start schema data with selections } = .ok c ∧
      run .default schema data selections = .ok m ∧
      run .default schema data (selections.restrict c.pinned.contains) = .ok m ∧
      ∀ path index, selections.get? path = some index →
        (c.pinned.contains path = true ↔
          Offered selections (situated (Schema.prepare schema) data) path index) ∧
        (¬ Offered selections (situated (Schema.prepare schema) data) path index →
          run .default schema data (selections.erase path) = .ok m) := by
  obtain ⟨c, hc, -, -, hpinned⟩ := runStages_beforeTree schema data selections
  refine ⟨c, _, hc, run_default _ _ _, ?_, fun path index hindex => ?_⟩
  · rw [← run_default]
    apply run_restrict
    intro found hfound
    rw [hpinned]
    exact contains_pinnedCombinators_iff.2 ⟨found, hfound, rfl⟩
  constructor
  · rw [hpinned, contains_pinnedCombinators_iff]
    constructor
    · rintro ⟨found, hfound, rfl⟩
      exact offered_of_mem_resolve (schema.prepare.situated data) hfound hindex
    · exact exists_mem_resolve_of_offered (schema.prepare.situated data) hindex
  · intro hnot
    rw [← run_default]
    apply run_restrict (p := (· != path))
    intro found hfound
    rw [bne_iff_ne]
    rintro rfl
    exact hnot (offered_of_mem_resolve (schema.prepare.situated data) hfound hindex)

/-- The choice of the branch with a property takes effect, and the property has no branches for the
choice at its own path. -/
theorem ineffective_choices_inert_property :
    (branchesOf [.obj onePropertyFields]).KeysUnique ∧
    ∃ c m,
      runStages .default Stage.beforeTree
        { Context.start (branchesOf [.obj onePropertyFields]) none with
          selections := (SortedMap.empty.insert "" 0).insert "/a" 1 } = .ok c ∧
      c.pinned.contains "" = true ∧ c.pinned.contains "/a" = false ∧
      run .default (branchesOf [.obj onePropertyFields]) none
        ((SortedMap.empty.insert "" 0).insert "/a" 1) = .ok m ∧
      run .default (branchesOf [.obj onePropertyFields]) none
        (((SortedMap.empty.insert "" 0).insert "/a" 1).erase "/a") = .ok m := by
  have hkeys : (branchesOf [.obj onePropertyFields]).KeysUnique :=
    keysUnique_branchesOf (List.forall_mem_singleton.2 keysUnique_onePropertyFields)
  obtain ⟨c, m, hc, hm, -, heach⟩ := ineffective_choices_inert ⟨_, hkeys⟩ none
    ((SortedMap.empty.insert "" 0).insert "/a" 1)
  rw [prepare_branchesOf (List.forall_mem_singleton.2 rfl), List.map_singleton,
    prepare_onePropertyFields, situated_branchesOf] at heach
  have hroot : Offered ((SortedMap.empty.insert "" 0).insert "/a" 1)
      (branchesOf [.obj onePropertyFields]) "" 0 :=
    ⟨[], .oneOf, [.obj onePropertyFields], rfl, rfl, Nat.zero_lt_one⟩
  have hproperty : ¬ Offered ((SortedMap.empty.insert "" 0).insert "/a" 1)
      (branchesOf [.obj onePropertyFields]) "/a" 1 := by
    rintro ⟨segments, kind, options, hpath, hoffer, -⟩
    obtain rfl : ["a"] = segments := Pointer.build_injective hpath
    cases hoffer
  obtain ⟨hrootIff, -⟩ := heach "" 0 rfl
  obtain ⟨hpropertyIff, hinert⟩ := heach "/a" 1 rfl
  refine ⟨hkeys, c, m, hc, hrootIff.2 hroot, ?_, hm, hinert hproperty⟩
  rw [Bool.eq_false_iff, ne_eq, hpropertyIff]
  exact hproperty

end Pipeline
end SchemaForm
