import SchemaForm.Proofs.Pipeline.Inert
import SchemaForm.Proofs.Pipeline.Seeding

/-!
# What a field says about its branches

A field shows branches that its schema declares, with the first one that fits in force, or else the
branches of a choice that took effect at its path. Main statement: in every model both kinds of
fields say what is the case, and a field with branches of its own has the children of the field that
would be made of the branch in force.
-/

namespace SchemaForm

namespace Combinator

variable {fits : Json → Bool} {options : List Json}

/-- Every branch has a label, and the branch in force is one of them. -/
structure WellFormed (c : Combinator) : Prop where
  labels : c.labels.length = c.options.length
  active : ∀ i, c.active = some i → i < c.options.length

/-- The first branch that fits is in force, and it is said whether there are more that fit. -/
structure Reports (c : Combinator) (kind : CombinatorKind) (options : List Json)
    (fits : Json → Bool) : Prop where
  kind_eq : c.kind = kind
  options_eq : c.options = options
  some_iff : ∀ i, c.active = some i ↔
    FitsAt fits options i ∧ ∀ j < i, ¬ FitsAt fits options j
  none_iff : c.active = none ↔ ∀ i, ¬ FitsAt fits options i
  ambiguous_iff : c.ambiguous = true ↔
    ∃ i j, i < j ∧ FitsAt fits options i ∧ FitsAt fits options j

theorem length_labelsOf (options : List Json) : (labelsOf options).length = options.length :=
  List.length_mapIdx

theorem reports_matched (kind : CombinatorKind) (options : List Json) (fits : Json → Bool) :
    (matched kind options fits).Reports kind options fits where
  kind_eq := rfl
  options_eq := rfl
  some_iff _ := head?_fitting_eq_some_iff
  none_iff := head?_fitting_eq_none_iff
  ambiguous_iff := decide_eq_true_iff.trans one_lt_length_fitting_iff

theorem wellFormed_matched (kind : CombinatorKind) (options : List Json) (fits : Json → Bool) :
    (matched kind options fits).WellFormed where
  labels := length_labelsOf options
  active i hactive := by
    obtain ⟨⟨option, hoption, -⟩, -⟩ := head?_fitting_eq_some_iff.1 hactive
    obtain ⟨hlt, -⟩ := List.getElem?_eq_some_iff.1 hoption
    exact hlt

theorem wellFormed_pinned (kind : CombinatorKind) {options : List Json} {index : Nat}
    (h : index < options.length) : (pinned kind options index).WellFormed where
  labels := length_labelsOf options
  active _ hactive := Option.some.inj hactive ▸ h

end Combinator

namespace FieldTree

open Json Schema

variable {pinned : SortedMap Combinator} {n : FieldNode} {info : Combinator}
  {kind : CombinatorKind} {options : List Json}

/-- The field that is made of a schema and data at a path. -/
def made [Patterns] (pinned : SortedMap Combinator) (schema : Json) (data : Option Json)
    (path : String) (origin : Origin) (required : Bool) : FieldNode :=
  node pinned schema data path origin required (below pinned schema data path).1

theorem IsNode.combinator_of_branches [Patterns] (h : IsNode pinned n)
    (hbranches : branches? (membersOf (some n.schema)) = some (kind, options)) :
    n.combinator = some (Combinator.matched kind options fun option => accepts option n.value) := by
  rw [h.combinator_eq, ownCombinator?, hbranches]
  rfl

theorem IsNode.combinator_of_no_branches [Patterns] (h : IsNode pinned n)
    (hbranches : branches? (membersOf (some n.schema)) = none) :
    n.combinator = pinned.get? n.path := by
  rw [h.combinator_eq, ownCombinator?, hbranches]
  rfl

/-- A field whose branches do not fit has no children. -/
theorem IsNode.children_of_no_fit [Patterns] (h : IsNode pinned n)
    (hbranches : branches? (membersOf (some n.schema)) = some (kind, options))
    (hfits : ∀ i, ¬ Combinator.FitsAt (accepts · n.value) options i) : n.children = [] := by
  have hnone : fittingBranch? options n.value = none :=
    Combinator.find?_eq_none_of_head?_fitting (Combinator.head?_fitting_eq_none_iff.2 hfits)
  rw [h.children_eq, below_of_no_fit hbranches hnone]

/-- A field with branches has the children that the first one that fits brings. -/
theorem IsNode.children_of_fit [Patterns] (h : IsNode pinned n)
    (hbranches : branches? (membersOf (some n.schema)) = some (kind, options)) {i : Nat}
    (hfirst : (Combinator.fitting (accepts · n.value) options).head? = some i) {option : Json}
    (hoption : options[i]? = some option) (origin : Origin) (required : Bool) :
    n.children = (made pinned
      (merge (.obj (Entries.eraseAll combinatorKeywords (membersOf (some n.schema)))) option)
      n.value n.path origin required).children := by
  have hfits : fittingBranch? options n.value = some option :=
    (Combinator.find?_eq_of_head?_fitting hfirst).trans hoption
  rw [h.children_eq, below_of_branch hbranches hfits, merge_obj]
  rfl

/-- A field with branches of its own reports which of them fit the data, and its children are those
of the field that would be made of the branch in force. -/
structure ShowsBranches [Patterns] (pinned : SortedMap Combinator) (n : FieldNode)
    (info : Combinator) (kind : CombinatorKind) (options : List Json) : Prop where
  reports : info.Reports kind options (accepts · n.value)
  children_none : info.active = none → n.children = []
  children_some : ∀ i option, info.active = some i → options[i]? = some option →
    n.children = (made pinned
      (merge (.obj (Entries.eraseAll combinatorKeywords (membersOf (some n.schema)))) option)
      n.value n.path n.origin n.required).children

/-- What a field says about branches is what the data make of those that its own schema declares, and
otherwise what is pinned at its path. -/
def SoundInfo [Patterns] (pinned : SortedMap Combinator) (n : FieldNode) (info : Combinator) :
    Prop :=
  match branches? (membersOf (some n.schema)) with
  | some (kind, options) => ShowsBranches pinned n info kind options
  | none => pinned.get? n.path = some info

theorem IsNode.showsBranches [Patterns] (h : IsNode pinned n) (hinfo : n.combinator = some info)
    (hbranches : branches? (membersOf (some n.schema)) = some (kind, options)) :
    ShowsBranches pinned n info kind options := by
  rw [h.combinator_of_branches hbranches] at hinfo
  cases hinfo
  have hreports := Combinator.reports_matched kind options (accepts · n.value)
  refine ⟨hreports, fun hnone => ?_, fun i option hsome hoption => ?_⟩
  · exact h.children_of_no_fit hbranches (hreports.none_iff.1 hnone)
  · exact h.children_of_fit hbranches hsome hoption n.origin n.required

theorem IsNode.soundInfo [Patterns] (h : IsNode pinned n) (hinfo : n.combinator = some info) :
    SoundInfo pinned n info := by
  unfold SoundInfo
  cases hbranches : branches? (membersOf (some n.schema)) with
  | some offer => exact h.showsBranches hinfo hbranches
  | none => exact (h.combinator_of_no_branches hbranches).symm.trans hinfo

end FieldTree

namespace Pipeline

open Defaults FieldTree Json Schema Selection

/-- What a pinned choice says is well formed. -/
theorem wellFormed_of_pinned {selections : Selections} {schema : Json} {path : String}
    {info : Combinator} (h : (pinnedCombinators selections schema).get? path = some info) :
    info.WellFormed := by
  obtain ⟨kind, options, index, -, hlt, hinfo⟩ :=
    (ofSelection_of_mem_resolve selections).1 schema "" _ (mem_resolve_of_get?_pinnedCombinators h)
  obtain rfl : info = Combinator.pinned kind options index := hinfo
  exact Combinator.wellFormed_pinned kind hlt

theorem wellFormed_of_isNode [Patterns] {selections : Selections} {schema : Json} {n : FieldNode}
    {info : Combinator} (h : IsNode (pinnedCombinators selections schema) n)
    (hinfo : n.combinator = some info) : info.WellFormed := by
  cases hbranches : branches? (membersOf (some n.schema)) with
  | some offer =>
    rw [h.combinator_of_branches hbranches] at hinfo
    cases hinfo
    exact Combinator.wellFormed_matched _ _ _
  | none => exact wellFormed_of_pinned ((h.combinator_of_no_branches hbranches).symm.trans hinfo)

/-- What the fields of a model say about branches is well formed and sound for the data from which
the tree was built, before defaults were filled in. -/
theorem combinator_sound [Patterns] (schema : Json) (data : Option Json) (selections : Selections) :
    ∃ c m,
      runStages .default Stage.beforeTree { Context.start schema data with selections } = .ok c ∧
      run .default schema data selections = .ok m ∧
      ∀ path n info, m.get? path = some n → n.combinator = some info →
        n.path = path ∧ info.WellFormed ∧
        ∃ value, (build c.pinned c.schema c.data).get? path = some { n with value } ∧
          SoundInfo c.pinned { n with value } info := by
  obtain ⟨c, hc, hschema, hdata, hpinned⟩ := runStages_beforeTree schema data selections
  refine ⟨c, _, hc, run_default _ _ _, fun path n info hn hinfo => ?_⟩
  rw [FormModel.get?, index_plainModel] at hn
  obtain ⟨node, hnode, rfl⟩ := get?_seededIndex hn
  obtain ⟨hpath, hisNode⟩ := isNode_of_get?_build hnode
  refine ⟨hpath, wellFormed_of_isNode hisNode hinfo, node.value, ?_, ?_⟩
  · rw [hschema, hdata, hpinned]
    exact hnode
  · rw [hpinned]
    exact hisNode.soundInfo hinfo

theorem combinator_sound_twoFit :
    ∃ c m n info value,
      runStages .default Stage.beforeTree
        { Context.start (branchesOf [.obj onePropertyFields, .empty]) none with
          selections := .empty } = .ok c ∧
      run .default (branchesOf [.obj onePropertyFields, .empty]) none .empty = .ok m ∧
      m.get? "" = some n ∧ n.combinator = some info ∧
      info.active = some 0 ∧ info.ambiguous = true ∧
      (build c.pinned c.schema c.data).get? "" = some { n with value } ∧
      n.children =
        (made c.pinned (merge .empty (.obj onePropertyFields)) value "" .root false).children := by
  obtain ⟨c, m, hc, hm, hsound⟩ :=
    combinator_sound (branchesOf [.obj onePropertyFields, .empty]) none .empty
  have hprepare : Schema.prepare (branchesOf [.obj onePropertyFields, .empty]) =
      branchesOf [.obj onePropertyFields, .empty] := prepare_eq_self rfl rfl rfl rfl
  have hroot : m.get? "" = m.root? := rfl
  obtain rfl := eq_plainModel_of_run hprepare hm
  obtain ⟨seeded, hseeded⟩ := root?_plainModel (branchesOf [.obj onePropertyFields, .empty]) none
    .empty
  rw [hseeded, situated_branchesOf] at hroot
  obtain ⟨-, -, value, hbuilt, hsays⟩ := hsound "" _ _ hroot rfl
  have hshows : ShowsBranches c.pinned _ _ .oneOf [.obj onePropertyFields, .empty] := hsays
  exact ⟨c, _, _, _, value, hc, hm, hroot, rfl, rfl, rfl, hbuilt, hshows.children_some 0 _ rfl rfl⟩

end Pipeline
end SchemaForm
