import SchemaForm.Proofs.Pipeline.Combinator
import SchemaForm.Proofs.Pipeline.Situated
import SchemaForm.Proofs.Store.Plain
import SchemaForm.Regex.Engine

/-!
# Obeyed choices

A choice of a branch is kept through all later writes, but it is not always obeyed: the walk over
the selections and the tree can come to different schemas at one path. Main statement: after a
choice and any accepted writes the field shows the chosen branch if and only if the choice is in
force in the schema and the data of the model.
-/

namespace SchemaForm.Store

open Json Pipeline

/-- The second store comes from the first one by accepted writes. -/
inductive Written [Patterns] (s : Store) : Store → Prop where
  | refl : Written s s
  | write {t u : Store} {path : String} {value : Json} {told : List Notification}
      {notes : List String} (h : Written s t)
      (hset : t.setData path value = ⟨u, ⟨.ok told, notes⟩⟩) : Written s u

/-- The field at a path is there and shows these branches with one of them in force. -/
def Shows (s : Store) (path : String) (options : List Json) (index : Nat) : Prop :=
  ∃ n, s.node? path = some n ∧ n.Shows options index

theorem setData_keeps [Patterns] (s : Store) (path : String) (value : Json) :
    (s.setData path value).store.schema = s.schema ∧
      (s.setData path value).store.selections = s.selections := by
  rcases setData_cases s path value with ⟨e, heq⟩ | ⟨-, heq⟩ | ⟨data, dirty, -, -, heq⟩
  · rw [heq]
    exact ⟨rfl, rfl⟩
  · rw [heq]
    exact ⟨rfl, rfl⟩
  · obtain ⟨hschema, -, -, hselections, -⟩ := commit_keeps s (some data) dirty
    rw [heq]
    exact ⟨hschema, hselections⟩

/-- Writes keep the schema and the choices, and a plain store plain. -/
theorem Written.keeps [Patterns] {s t : Store} (h : Written s t) (hs : Plain s) :
    Plain t ∧ t.schema = s.schema ∧ t.selections = s.selections := by
  induction h with
  | refl => exact ⟨hs, rfl, rfl⟩
  | @write t u path value told notes h hset ih =>
    obtain ⟨hplain, hschema, hselections⟩ := ih
    have hnext := hplain.setData path value
    obtain ⟨hschema', hselections'⟩ := setData_keeps t path value
    rw [hset] at hnext hschema' hselections'
    exact ⟨hnext, hschema'.trans hschema, hselections'.trans hselections⟩

/-- An accepted choice is noted, and changes neither the schema nor another choice. -/
theorem setCombinatorIndex_accepted [Patterns] {s after : Store} {path : String} {index : Nat}
    {told : List Notification} {notes : List String}
    (h : s.setCombinatorIndex path index = ⟨after, ⟨.ok told, notes⟩⟩) :
    after.schema = s.schema ∧ after.selections = s.selections.insert path index := by
  rcases setCombinatorIndex_cases s path index with ⟨e, -, heq⟩ | ⟨dirty, -, heq⟩
  · rw [heq] at h
    cases h
  · obtain ⟨hschema, -, -, hselections, -⟩ :=
      commit_keeps { s with selections := s.selections.insert path index } s.data dirty
    rw [← heq, h] at hschema hselections
    exact ⟨hschema, hselections⟩

/-! ### A choice inside a matched branch

The schema below declares branches for a property inside the one branch of the root. The walk over
the selections stops at the root, whose branches have no choice, while the tree goes on through the
branch. -/

section Nested

/-- Two branches that only have titles, and so fit all data. -/
def titledOptions : List Json := [.obj [("title", .str "A")], .obj [("title", .str "B")]]

/-- A branch with a property that has branches. -/
def branchWithChoice : Json :=
  .obj [("properties", .obj [("a", .obj [("oneOf", .arr titledOptions)])])]

/-- A schema with that branch alone. -/
def nestedChoice : Json := .obj [("oneOf", .arr [branchWithChoice])]

theorem keysUnique_nestedChoice : nestedChoice.KeysUnique := by
  simp [nestedChoice, branchWithChoice, titledOptions]

theorem prepare_nestedChoice : Schema.prepare nestedChoice = nestedChoice :=
  prepare_eq_self rfl rfl rfl rfl

theorem situated_nestedChoice [Patterns] (data : Option Json) :
    situated nestedChoice data = nestedChoice :=
  situated_of_isFixed rfl data

theorem accepts_titledOption [Patterns] {option : Json} (h : option ∈ titledOptions)
    (data : Option Json) : Schema.accepts option data = true := by
  rcases List.mem_pair.1 h with rfl | rfl
  · cases data with
    | none => rfl
    | some v => cases v <;> rfl
  · cases data with
    | none => rfl
    | some v => cases v <;> rfl

theorem accepts_titledBranches [Patterns] (data : Option Json) :
    Schema.accepts (.obj [("oneOf", .arr titledOptions)]) data = true := by
  cases data with
  | none => rfl
  | some v => cases v <;> rfl

theorem accepts_branchWithChoice [Patterns] (data : Option Json) :
    Schema.accepts branchWithChoice data = true := by
  cases data with
  | none => rfl
  | some v =>
    cases v with
    | obj members =>
      show (true && ((Schema.accepts _ (Entries.get? "a" members) && true) && true) && true) = true
      rw [accepts_titledBranches]
      rfl
    | _ => rfl

theorem fitting_titledOptions [Patterns] (data : Option Json) :
    Combinator.fitting (fun option => Schema.accepts option data) titledOptions = [0, 1] := by
  rw [Combinator.fitting_of_forall fun option h => accepts_titledOption h data]
  rfl

/-- Whatever the data are, the tree comes to the titled branches. -/
theorem fragmentAt_nestedChoice [Patterns] (data : Option Json) :
    FieldTree.fragmentAt ["a"] nestedChoice data =
      some (.obj [("oneOf", .arr titledOptions)], data.bind (get? "a")) := by
  have hsettled : FieldTree.settled nestedChoice data = some branchWithChoice := by
    have hfits : FieldTree.fittingBranch? [branchWithChoice] data = some branchWithChoice := by
      rw [FieldTree.fittingBranch?, List.find?_cons, accepts_branchWithChoice]
    have hbranches : branches? (Schema.membersOf (some nestedChoice)) =
        some (.oneOf, [branchWithChoice]) := rfl
    rw [FieldTree.settled_of_branch hbranches hfits]
    exact FieldTree.settled_of_no_branches rfl data
  rw [FieldTree.fragmentAt, hsettled]
  rfl

theorem ownCombinator?_titledBranches [Patterns] (value : Option Json) :
    FieldTree.ownCombinator? (.obj [("oneOf", .arr titledOptions)]) value =
      some (Combinator.matched .oneOf titledOptions fun option => Schema.accepts option value) :=
  rfl

theorem chosenSchema_nestedChoice_below :
    chosenSchema (SortedMap.empty.insert "/a" 1) nestedChoice = nestedChoice := by
  have hchoose : Selection.choose (SortedMap.empty.insert "/a" 1) ""
      [("oneOf", .arr [branchWithChoice])] = ([("oneOf", .arr [branchWithChoice])], []) := rfl
  show (Selection.resolve _ nestedChoice "").1 = _
  rw [nestedChoice, Selection.resolve_obj, hchoose, Selection.resolveBelow_of_values (by simp)]

theorem chosenSchema_nestedChoice_root :
    chosenSchema (SortedMap.empty.insert "" 0) nestedChoice = branchWithChoice := by
  have hroot : (Selection.choose (SortedMap.empty.insert "" 0) ""
      [("oneOf", .arr [branchWithChoice])]).1 =
        [("properties", .obj [("a", .obj [("oneOf", .arr titledOptions)])])] := rfl
  have hbelow : Selection.choose (SortedMap.empty.insert "" 0) (Pointer.append "" "a")
      [("oneOf", .arr titledOptions)] = ([("oneOf", .arr titledOptions)], []) := rfl
  show (Selection.resolve _ nestedChoice "").1 = _
  rw [nestedChoice, Selection.resolve_obj, hroot, Selection.resolveBelow_cons_obj,
    Selection.resolveBelow_nil, Selection.resolveValue, if_pos rfl, Selection.resolveNamed_cons,
    Selection.resolveNamed_nil, Selection.resolve_obj, hbelow,
    Selection.resolveBelow_of_values (by simp)]
  rfl

/-- The choice of the second titled branch is not in force, whatever the data are. -/
theorem not_choiceInForce_nestedChoice [Patterns] (data : Option Json) :
    ¬ ChoiceInForce nestedChoice data (SortedMap.empty.insert "/a" 1) ["a"] titledOptions 1 := by
  rintro ⟨fragment, value, hfragment, hforce⟩
  rw [chosenSchema_nestedChoice_below, fragmentAt_nestedChoice] at hfragment
  cases hfragment
  obtain ⟨-, hfitting⟩ := hforce
  rw [fitting_titledOptions] at hfitting
  cases hfitting

/-- The choice of the branch of the root is in force, whatever the data are. -/
theorem choiceInForce_nestedChoice [Patterns] (data : Option Json) :
    ChoiceInForce nestedChoice data (SortedMap.empty.insert "" 0) [] [branchWithChoice] 0 := by
  refine ⟨branchWithChoice, data, ?_, .oneOf, rfl, Nat.zero_lt_one⟩
  rw [chosenSchema_nestedChoice_root]
  rfl

theorem exists_reachable_nestedChoice :
    ∃ cache, CacheCoherent nestedChoice cache ∧
      Reachable .default (first nestedChoice cache (some .empty)) := by
  obtain ⟨cache, hcoherent, hcreate⟩ := create_default nestedChoice (some .empty)
  exact ⟨cache, hcoherent, .created (congrArg Traced.result hcreate)⟩

end Nested

/-! ### Whether a choice is obeyed -/

/-- After a choice and any accepted writes, the field shows the chosen branch if and only if the
choice is in force in the schema and the data of the model. -/
theorem choice_obeyed_iff [Patterns] {s chosen after : Store} {schema : Document}
    {segments : List String} {index : Nat} {told : List Notification} {notes : List String}
    (hs : Reachable .default s) (hkept : s.schema = schema)
    (hchoice : s.setCombinatorIndex (Pointer.build segments) index = ⟨chosen, ⟨.ok told, notes⟩⟩)
    (hwritten : Written chosen after) :
    ∃ data, after.model = plainModel (Schema.prepare schema) data
        (s.selections.insert (Pointer.build segments) index) ∧
      ∀ options, after.Shows (Pointer.build segments) options index ↔
        ChoiceInForce (situated (Schema.prepare schema) data) data
          (s.selections.insert (Pointer.build segments) index) segments options index := by
  have hchosen := hs.plain.setCombinatorIndex (Pointer.build segments) index
  obtain ⟨hschema, hselections⟩ := setCombinatorIndex_accepted hchoice
  rw [hchoice] at hchosen
  obtain ⟨hafter, hschema', hselections'⟩ := hwritten.keeps hchosen
  obtain ⟨data, hmodel⟩ := hafter.model
  rw [hschema', hschema, hkept, hselections', hselections] at hmodel
  refine ⟨data, hmodel, fun options => ?_⟩
  unfold Shows node?
  rw [hmodel]
  exact shows_plainModel_iff schema.prepare data (SortedMap.get?_insert_self _ _ _) options

theorem choice_obeyed_at_root :
    ∃ s chosen after told, Reachable .default s ∧ s.schema.KeysUnique ∧
      s.setCombinatorIndex (Pointer.build []) 0 = ⟨chosen, ⟨.ok told, []⟩⟩ ∧
      chosen.Written after ∧ after.Shows (Pointer.build []) [branchWithChoice] 0 := by
  obtain ⟨cache, -, hs⟩ := exists_reachable_nestedChoice
  have hparse : Pointer.parse (Pointer.build []) = .ok [] := rfl
  obtain ⟨cache', told, hchoice⟩ := hs.plain.exists_setCombinatorIndex hparse 0
  have hchosen := hs.plain.setCombinatorIndex (Pointer.build []) 0
  rw [hchoice] at hchosen
  obtain ⟨after, told', hset⟩ := hchosen.exists_setData_root (.bool true)
  have hwritten := Written.refl.write hset
  obtain ⟨data, -, hiff⟩ := @choice_obeyed_iff _ _ _ _
    ⟨nestedChoice, keysUnique_nestedChoice⟩ _ _ _ _ hs rfl hchoice hwritten
  refine ⟨_, _, after, told, hs, keysUnique_nestedChoice, hchoice, hwritten, (hiff _).2 ?_⟩
  show ChoiceInForce (situated (Schema.prepare nestedChoice) data) data _ [] _ 0
  rw [prepare_nestedChoice, situated_nestedChoice]
  exact choiceInForce_nestedChoice data

/-- A field shows two branches, the choice of the second one is accepted, and the field goes on
showing that both fit. -/
theorem choice_inside_branch_ignored :
    ∃ s chosen told n combinator, Reachable .default s ∧ s.schema.KeysUnique ∧
      s.node? (Pointer.build ["a"]) = some n ∧ n.combinator = some combinator ∧
      combinator.options = titledOptions ∧ 1 < titledOptions.length ∧
      s.setCombinatorIndex (Pointer.build ["a"]) 1 = ⟨chosen, ⟨.ok told, []⟩⟩ ∧
      ¬ chosen.Shows (Pointer.build ["a"]) titledOptions 1 := by
  obtain ⟨cache, -, hs⟩ := exists_reachable_nestedChoice
  have hparse : Pointer.parse (Pointer.build ["a"]) = .ok ["a"] := rfl
  obtain ⟨cache', told, hchoice⟩ := hs.plain.exists_setCombinatorIndex hparse 1
  have hcombinator := combinator_plainModel ⟨nestedChoice, keysUnique_nestedChoice⟩
    (some .empty) .empty ["a"]
  have hunchosen : chosenSchema .empty nestedChoice = nestedChoice := rfl
  rw [situated_nestedChoice, hunchosen,
    fragmentAt_nestedChoice, Option.map_some, ownCombinator?_titledBranches] at hcombinator
  obtain ⟨n, hn, hshown⟩ := Option.map_eq_some_iff.1 hcombinator
  refine ⟨_, _, told, n, _, hs, keysUnique_nestedChoice, ?_, hshown, rfl, Nat.one_lt_two, hchoice,
    ?_⟩
  · show (plainModel (Schema.prepare nestedChoice) (some .empty) .empty).get? _ = _
    rw [prepare_nestedChoice]
    exact hn
  · intro hshows
    have hforce := (shows_plainModel_iff (Document.prepare ⟨_, keysUnique_nestedChoice⟩) _
      (SortedMap.get?_insert_self _ _ _) titledOptions).1 hshows
    change ChoiceInForce (situated (Schema.prepare nestedChoice) _) _ _ _ _ _ at hforce
    rw [prepare_nestedChoice, situated_nestedChoice] at hforce
    exact not_choiceInForce_nestedChoice _ hforce

end SchemaForm.Store
