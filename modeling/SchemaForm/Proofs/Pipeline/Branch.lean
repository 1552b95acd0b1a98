import SchemaForm.Proofs.Pipeline.Chain
import SchemaForm.Proofs.Pipeline.Combinator
import SchemaForm.Proofs.Pipeline.Nesting
import SchemaForm.Proofs.Pipeline.Situated
import SchemaForm.Proofs.Schema.Merge
import SchemaForm.Proofs.Schema.Prepare

/-!
# A branch of its own

The fields of a branch that fits come from the tree, which merges it into the schema around it after
conditionals and dependents have been resolved there. Main statement: where a schema consists of one
branch and the branch is in force, the fields stand at the paths that the branch has by itself with
its conditionals and dependents left as they are; these are the paths of the branch by itself
wherever resolving them would change nothing.
-/

namespace SchemaForm

/-! ### Keywords but for lists of names -/

namespace Schema

open Json

/-- The rule only puts lists of names together. -/
def MergeRule.IsNames (rule : MergeRule) : Prop := rule = .names ∨ rule = .namesByName

/-- The keywords agree, lists of names apart. Merging frees such a list of repetitions. -/
def AlikeButNames (a b : Fields) : Prop :=
  ∀ keyword, ¬ (mergeRule keyword).IsNames → Entries.get? keyword a = Entries.get? keyword b

/-- Schemas with new names are put behind the others. -/
theorem mergeNamed_of_nodup {acc named : Fields} (h : (Entries.keys (acc ++ named)).Nodup) :
    mergeNamed acc named = acc ++ named := by
  induction named generalizing acc with
  | nil => rw [mergeNamed, List.append_nil]
  | cons entry rest ih =>
    obtain ⟨name, v⟩ := entry
    have hnew : name ∉ Entries.keys acc := by
      rw [Entries.keys, List.map_append, List.nodup_append] at h
      intro hmem
      exact h.2.2 name hmem name List.mem_cons_self rfl
    have hinsert : Entries.insert name v acc ++ rest = acc ++ (name, v) :: rest := by
      rw [Entries.insert_of_notMem hnew, List.append_assoc]
      rfl
    rw [mergeNamed, Entries.get?_eq_none_iff.2 hnew, Option.elim_none, ih, hinsert]
    rwa [hinsert]

/-- A value that is merged into nothing stays as it is. -/
theorem joined_none {keyword : String} (hnames : ¬ (mergeRule keyword).IsNames) {v : Json}
    (hv : v.KeysUnique) : joined keyword none (some v) = some v := by
  rw [joined]
  generalize mergeRule keyword = rule at hnames
  cases rule with
  | names => exact absurd (.inl rfl) hnames
  | namesByName => exact absurd (.inr rfl) hnames
  | schemasByName =>
    cases v with
    | obj named =>
      have hnamed : mergeNamed [] named = named :=
        mergeNamed_of_nodup (keysUnique_obj_iff.1 hv).nodup
      simp only [mergeJoined, membersOf, Option.bind_none, Option.getD_none, hnamed]
      rfl
    | _ => rfl
  | _ => cases v <;> rfl

/-- Keywords that are merged into none agree with themselves. -/
theorem alikeButNames_mergeKeywords_nil {fields : Fields} (h : MembersUnique fields) :
    AlikeButNames (mergeKeywords [] fields) fields := by
  intro keyword hnames
  rw [get?_mergeKeywords h.nodup, Entries.get?_nil]
  cases hv : Entries.get? keyword fields with
  | none => rfl
  | some v => exact joined_none hnames (h.get? hv)

namespace AlikeButNames

variable {a b : Fields}

theorem eraseAll (h : AlikeButNames a b) (keywords : List String) :
    AlikeButNames (Entries.eraseAll keywords a) (Entries.eraseAll keywords b) := by
  intro keyword hnames
  rw [Entries.get?_eraseAll, Entries.get?_eraseAll, h keyword hnames]

theorem absorb (h : AlikeButNames a b) {schema : Json} (hschema : schema.KeysUnique) :
    AlikeButNames (absorb a schema) (absorb b schema) := by
  cases schema with
  | obj fields =>
    intro keyword hnames
    have hnodup := (keysUnique_obj_iff.1 hschema).nodup
    rw [Schema.absorb, Schema.absorb, get?_mergeKeywords hnodup, get?_mergeKeywords hnodup,
      h keyword hnames]
  | _ => exact h

end AlikeButNames

/-! ### What the tree reads -/

/-- The keywords from which the tree takes the type of a field and what lies below it. -/
def shapeKeywords : List String :=
  ["type", "properties", "additionalProperties", "patternProperties", "items", "prefixItems",
    "enum", "const"]

theorem AlikeButNames.get?_of_shape {a b : Fields} (h : AlikeButNames a b) :
    ∀ keyword ∈ shapeKeywords, (Json.obj a).get? keyword = (Json.obj b).get? keyword := by
  have hshape : ∀ keyword ∈ shapeKeywords, ¬ (mergeRule keyword).IsNames := by
    unfold MergeRule.IsNames
    decide
  exact fun keyword hkeyword => h keyword (hshape keyword hkeyword)

variable {schema other : Json}

theorem fieldType_congr
    (h : ∀ keyword ∈ shapeKeywords, schema.get? keyword = other.get? keyword)
    (data : Option Json) : fieldType schema data = fieldType other data := by
  have htypes : types? schema = types? other := by
    rw [types?, types?, h "type" (by decide)]
  have hdeclares : ∀ keyword ∈ shapeKeywords, declares schema keyword = declares other keyword := by
    intro keyword hkeyword
    rw [declares, declares, h keyword hkeyword]
  have hoptions : optionsType? schema = optionsType? other := by
    rw [optionsType?, optionsType?, getItems?, getItems?, h "enum" (by decide)]
  have hany : ∀ keywords : List String, keywords ⊆ shapeKeywords →
      keywords.any (declares schema) = keywords.any (declares other) := by
    intro keywords hsubset
    rw [Bool.eq_iff_iff, List.any_eq_true, List.any_eq_true]
    constructor
    · rintro ⟨keyword, hkeyword, hdeclared⟩
      exact ⟨keyword, hkeyword, hdeclares keyword (hsubset hkeyword) ▸ hdeclared⟩
    · rintro ⟨keyword, hkeyword, hdeclared⟩
      exact ⟨keyword, hkeyword, (hdeclares keyword (hsubset hkeyword)).symm ▸ hdeclared⟩
  have himplied : impliedType? schema = impliedType? other := by
    rw [impliedType?, impliedType?, hany _ (by decide), hany _ (by decide), hoptions,
      h "const" (by decide)]
  rw [fieldType, fieldType, htypes, himplied]

end Schema

/-! ### The same walk -/

namespace FieldTree

open Json Schema

theorem elementAt_congr {schema other : Json}
    (h : ∀ keyword ∈ shapeKeywords, schema.get? keyword = other.get? keyword) (segment : String)
    (data : Option Json) : elementAt segment schema data = elementAt segment other data := by
  simp only [elementAt, fieldType_congr h data, itemSchema, getItems?, h "items" (by decide),
    h "prefixItems" (by decide)]

theorem propertyAt_congr {schema other : Json}
    (h : ∀ keyword ∈ shapeKeywords, schema.get? keyword = other.get? keyword) (segment : String)
    (data : Option Json) : propertyAt segment schema data = propertyAt segment other data := by
  simp only [propertyAt, fieldType_congr h data, getFields?, h "properties" (by decide)]

theorem branches?_congr {a b : Fields} (h : AlikeButNames a b) : branches? a = branches? b := by
  have hnames : ∀ keyword ∈ combinatorKeywords, ¬ (mergeRule keyword).IsNames := by
    unfold MergeRule.IsNames
    decide
  rw [branches?, branches?, h "oneOf" (hnames _ (by decide)), h "anyOf" (hnames _ (by decide))]

/-- Lists of names decide about no field below a schema. -/
theorem fragmentAt_congr [Patterns] {a b : Fields} (h : AlikeButNames a b) (ha : MembersUnique a)
    (data : Option Json) (segment : String) (rest : List String) :
    fragmentAt (segment :: rest) (.obj a) data = fragmentAt (segment :: rest) (.obj b) data := by
  generalize hschema : Json.obj a = schema
  induction schema using settled.induct data generalizing a b with
  | case1 schema hbranches =>
    subst hschema
    have hother : branches? (membersOf (some (.obj b))) = none :=
      (branches?_congr h).symm.trans hbranches
    rw [fragmentAt, fragmentAt, settled_of_no_branches hbranches, settled_of_no_branches hother,
      Option.bind_some, Option.bind_some, elementAt_congr h.get?_of_shape,
      propertyAt_congr h.get?_of_shape]
  | case2 schema kind options hbranches hfits =>
    subst hschema
    have hother : branches? (membersOf (some (.obj b))) = some (kind, options) :=
      (branches?_congr h).symm.trans hbranches
    rw [fragmentAt, fragmentAt, settled_of_no_fit hbranches hfits, settled_of_no_fit hother hfits]
  | case3 schema kind options hbranches option hfits ih =>
    subst hschema
    have hother : branches? (membersOf (some (.obj b))) = some (kind, options) :=
      (branches?_congr h).symm.trans hbranches
    obtain ⟨keyword, -, hoptions⟩ := Selection.mem_of_branches? hbranches
    have hoption : option.KeysUnique :=
      keysUnique_arr_iff.1 (ha.get? hoptions) option (List.mem_of_find?_eq_some hfits)
    rw [fragmentAt_of_branch hbranches hfits, fragmentAt_of_branch hother hfits]
    exact ih ((h.eraseAll _).absorb hoption) (membersUnique_absorb (ha.eraseAll _) hoption) rfl

/-- The index has a path exactly if the walk along some segments leads to a field there. -/
theorem isSome_get?_build_iff [Patterns] {pinned : SortedMap Combinator} {schema : Document}
    {data : Option Json} {path : String} :
    ((build pinned schema data).get? path).isSome = true ↔
      ∃ segments, path = Pointer.build segments ∧
        (fragmentAt segments schema data).isSome = true := by
  constructor
  · intro hsome
    obtain ⟨n, hn⟩ := Option.isSome_iff_exists.1 hsome
    obtain ⟨segments, rfl⟩ := exists_segments_of_get?_build hn
    refine ⟨segments, rfl, ?_⟩
    rw [← get?_build schema data segments, hn]
    rfl
  · rintro ⟨segments, rfl, hsome⟩
    rwa [← get?_build schema data segments, Option.isSome_map] at hsome

end FieldTree

namespace Pipeline

open Json Schema FieldTree

/-! ### One branch -/

/-- The paths of a model are those of the tree that it was seeded from. -/
theorem isSome_get?_apply (index : FieldIndex) (data : Option Json) (path : String) :
    ((Defaults.apply index data).2.get? path).isSome = (index.get? path).isSome := by
  have h := congrArg Option.isSome
    (Defaults.map_get?_apply (g := fun _ => ()) (fun _ _ => rfl) index data path)
  rwa [Option.isSome_map, Option.isSome_map] at h

theorem situated_branchesOf [Patterns] (options : List Json) (data : Option Json) :
    situated (branchesOf options) data = branchesOf options :=
  situated_of_isFixed rfl data

theorem keysUnique_branchesOf {options : List Json} (h : ∀ option ∈ options, option.KeysUnique) :
    (branchesOf options).KeysUnique := by
  simpa [branchesOf] using h

/-- One branch is in force exactly if it fits. -/
theorem activeBranch?_branchesOf [Patterns] (branch : Document) (data : Option Json) :
    (plainModel (branchesOf [branch]) data SortedMap.empty).root?.bind FieldNode.activeBranch? =
      if accepts branch data then some 0 else none := by
  have hunique : (branchesOf [branch]).KeysUnique :=
    keysUnique_branchesOf (List.forall_mem_singleton.2 branch.keysUnique)
  have hcombinator := combinator_plainModel ⟨_, hunique⟩ data SortedMap.empty []
  have hchosen : chosenSchema SortedMap.empty (branchesOf [branch]) = branchesOf [branch] := rfl
  rw [situated_branchesOf, hchosen, fragmentAt, Option.map_some] at hcombinator
  obtain ⟨n, hn, hshown⟩ := Option.map_eq_some_iff.1 hcombinator
  have hroot : (plainModel (branchesOf [branch]) data SortedMap.empty).root? = some n := hn
  have hown : ownCombinator? (branchesOf [branch]) data =
      some (Combinator.matched .oneOf [branch] fun option => accepts option data) := rfl
  rw [hroot, Option.bind_some, FieldNode.activeBranch?, hshown, hown]
  show (Combinator.fitting (fun option => accepts option data) [branch]).head? = _
  cases haccepts : accepts branch data <;> simp [Combinator.fitting, haccepts, List.range_succ]

/-- A branch that fits has its fields below the root as if it stood alone. -/
theorem fragmentAt_branchesOf [Patterns] {branch : Document} (hobj : (branch : Json).isObj = true)
    {data : Option Json} (hfits : accepts branch data = true) (segments : List String) :
    (fragmentAt segments (branchesOf [branch]) data).isSome =
      (fragmentAt segments branch data).isSome := by
  cases segments with
  | nil => rfl
  | cons segment rest =>
    obtain ⟨fields, hfields, hunique⟩ := Document.exists_members hobj
    rw [hfields] at hfits ⊢
    have hbranches : branches? (membersOf (some (branchesOf [.obj fields]))) =
        some (.oneOf, [.obj fields]) := rfl
    have hfitting : fittingBranch? [.obj fields] data = some (.obj fields) := by
      rw [fittingBranch?, List.find?_cons, hfits]
    have herased : Entries.eraseAll combinatorKeywords
        (membersOf (some (branchesOf [.obj fields]))) = [] := rfl
    rw [fragmentAt_of_branch hbranches hfitting, herased, absorb,
      fragmentAt_congr (alikeButNames_mergeKeywords_nil hunique)
        (keysUnique_merge.2.1 [] fields membersUnique_nil hunique.values)]

theorem isSome_get?_plainModel [Patterns] (prepared : Json) (data : Option Json)
    (selections : Selections) (path : String) :
    ((plainModel prepared data selections).get? path).isSome =
      ((plainIndex prepared data selections).get? path).isSome :=
  isSome_get?_apply _ data path

/-- A branch that is in force has its fields where the tree of the branch has them. -/
theorem isSome_get?_branchesOf [Patterns] (branch : Document) (hobj : (branch : Json).isObj = true)
    {data : Option Json}
    (hactive : (plainModel (branchesOf [branch]) data SortedMap.empty).root?.bind
      FieldNode.activeBranch? = some 0) (path : String) :
    ((plainModel (branchesOf [branch]) data SortedMap.empty).get? path).isSome =
      ((build .empty branch data).get? path).isSome := by
  have hfits : accepts branch data = true := by
    rw [activeBranch?_branchesOf] at hactive
    split at hactive
    · assumption
    · cases hactive
  have hbranches : (branchesOf [branch]).KeysUnique :=
    keysUnique_branchesOf (List.forall_mem_singleton.2 branch.keysUnique)
  have hplain : plainIndex (branchesOf [branch]) data SortedMap.empty =
      build .empty (branchesOf [branch]) data := by
    show build .empty (situated _ data) data = _
    rw [situated_branchesOf]
  rw [isSome_get?_plainModel, hplain, Bool.eq_iff_iff, @isSome_get?_build_iff _ _ ⟨_, hbranches⟩,
    isSome_get?_build_iff]
  simp only [fragmentAt_branchesOf hobj hfits]

/-- Conditionals and dependents are passed over. -/
def unresolving : Config :=
  ⟨[(.evaluateConditionals, Link.skipping.interceptor),
    (.evaluateDependents, Link.skipping.interceptor)], [], true⟩

theorem staticBare_unresolving : unresolving.StaticBare := by
  intro stage hstage
  simp only [Stage.static, List.mem_cons, List.not_mem_nil, or_false] at hstage
  rcases hstage with rfl | rfl | rfl <;> rfl

/-- Without resolving the tree is built from the prepared schema. -/
theorem run_unresolving [Patterns] (schema : Json) (data : Option Json) :
    ∃ m, run unresolving schema data SortedMap.empty = .ok m ∧
      m.index = (Defaults.apply (build .empty (Schema.prepare schema) data) data).2 := by
  rw [run_of_staticBare staticBare_unresolving]
  exact ⟨_, rfl, rfl⟩

/-- A branch that is in force has its fields where it has them by itself, without its conditionals
and dependents being resolved. -/
theorem branch_shows_unresolved [Patterns] {branch : Document}
    (hobj : (branch : Json).isObj = true) (hfree : references branch = []) (data : Option Json) :
    ∃ m bare direct,
      run .default (branchesOf [branch]) data SortedMap.empty = .ok m ∧
      run unresolving branch data SortedMap.empty = .ok bare ∧
      run .default branch data SortedMap.empty = .ok direct ∧
      (m.root?.bind FieldNode.activeBranch? = some 0 →
        (∀ path, (m.get? path).isSome = (bare.get? path).isSome) ∧
        (situated (Schema.prepare branch) data = Schema.prepare branch →
          ∀ path, (m.get? path).isSome = (direct.get? path).isSome)) := by
  obtain ⟨bare, hbare, hindex⟩ := run_unresolving branch data
  refine ⟨_, bare, _, run_default _ _ _, hbare, run_default _ _ _, fun hactive => ?_⟩
  rw [prepare_branchesOf (List.forall_mem_singleton.2 hfree), List.map_singleton] at hactive ⊢
  have hsame : ∀ path, ((plainModel (branchesOf [Schema.prepare branch]) data .empty).get?
      path).isSome = ((build .empty (Schema.prepare branch) data).get? path).isSome :=
    isSome_get?_branchesOf branch.prepare (isObj_prepare hobj hfree) hactive
  refine ⟨fun path => ?_, fun hsituated path => ?_⟩
  · rw [hsame, FormModel.get?, hindex, isSome_get?_apply]
  · rw [hsame, isSome_get?_plainModel]
    show _ = ((build .empty (situated _ data) data).get? path).isSome
    rw [hsituated]

/-- A schema with one property. -/
def onePropertyFields : Fields := [("properties", .obj [("a", .empty)])]

/-- A schema with one property behind a condition that holds. -/
def lateFields : Fields := [("if", .empty), ("then", .obj onePropertyFields)]

theorem keysUnique_onePropertyFields : (Json.obj onePropertyFields).KeysUnique := by
  simp [onePropertyFields]

theorem keysUnique_lateFields : (Json.obj lateFields).KeysUnique := by
  simp [lateFields, onePropertyFields]

theorem prepare_onePropertyFields :
    Schema.prepare (.obj onePropertyFields) = .obj onePropertyFields :=
  prepare_eq_self rfl rfl rfl rfl

theorem prepare_lateFields : Schema.prepare (.obj lateFields) = .obj lateFields :=
  prepare_eq_self rfl rfl rfl rfl

theorem situated_lateFields : situated (.obj lateFields) none = .obj onePropertyFields := by
  have hbranch : Entries.get? (Conditional.branchKeyword .empty none) lateFields =
      some (.obj onePropertyFields) := rfl
  have habsorbed : absorb (Entries.eraseAll Conditional.keywords lateFields)
      (.obj onePropertyFields) = onePropertyFields := rfl
  have hcondition : Entries.get? "if" lateFields = some .empty := rfl
  rw [situated, Conditional.resolve_of_branch hcondition hbranch, habsorbed]
  exact situated_of_isFixed rfl none

/-- A schema with one property, and with a second one if the data have the first. -/
def followedFields : Fields :=
  [("properties", .obj [("a", .empty)]), ("if", .obj [("required", .arr [.str "a"])]),
    ("then", .obj [("properties", .obj [("b", .empty)])])]

theorem keysUnique_followedFields : (Json.obj followedFields).KeysUnique := by
  simp [followedFields]

theorem prepare_followedFields : Schema.prepare (.obj followedFields) = .obj followedFields :=
  prepare_eq_self rfl rfl rfl rfl

/-- A branch with a conditional has its fields without the branch of the conditional, although the
condition holds; one without has all of its fields. -/
theorem branch_shows_unresolved_property :
    (∃ m bare,
      run .default (branchesOf [.obj followedFields]) (some (.obj [("a", int 1)]))
        SortedMap.empty = .ok m ∧
      run unresolving (.obj followedFields) (some (.obj [("a", int 1)])) SortedMap.empty =
        .ok bare ∧
      m.root?.bind FieldNode.activeBranch? = some 0 ∧
      (∀ path, (m.get? path).isSome = (bare.get? path).isSome) ∧
      (bare.get? (Pointer.build ["a"])).isSome = true ∧
      (bare.get? (Pointer.build ["b"])).isSome = false) ∧
    ∃ m direct,
      run .default (branchesOf [.obj onePropertyFields]) none SortedMap.empty = .ok m ∧
      run .default (.obj onePropertyFields) none SortedMap.empty = .ok direct ∧
      ∀ path, (m.get? path).isSome = (direct.get? path).isSome := by
  constructor
  · obtain ⟨m, bare, _, hm, hbare, -, hpaths⟩ :=
      @branch_shows_unresolved _ ⟨.obj followedFields, keysUnique_followedFields⟩ rfl rfl
        (some (.obj [("a", int 1)]))
    have hactive : m.root?.bind FieldNode.activeBranch? = some 0 := by
      obtain rfl := eq_plainModel_of_run (prepare_eq_self rfl rfl rfl rfl) hm
      rw [activeBranch?_branchesOf ⟨_, keysUnique_followedFields⟩]
      rfl
    obtain ⟨bare', hbare', hindex⟩ :=
      run_unresolving (.obj followedFields) (some (.obj [("a", int 1)]))
    obtain rfl := Except.ok.inj (congrArg Traced.result (hbare'.symm.trans hbare))
    have hfields : ∀ name, (bare'.get? (Pointer.build [name])).isSome =
        (fragmentAt [name] (.obj followedFields) (some (.obj [("a", int 1)]))).isSome := by
      intro name
      rw [FormModel.get?, hindex, isSome_get?_apply, prepare_followedFields, ← Option.isSome_map,
        get?_build ⟨_, keysUnique_followedFields⟩]
    refine ⟨m, bare', hm, hbare', hactive, (hpaths hactive).1, ?_, ?_⟩
    all_goals
      rw [hfields, fragmentAt, settled_of_no_branches rfl]
      rfl
  · obtain ⟨m, bare, direct, hm, -, hdirect, hpaths⟩ :=
      @branch_shows_unresolved _ ⟨.obj onePropertyFields, keysUnique_onePropertyFields⟩ rfl rfl
        none
    refine ⟨m, direct, hm, hdirect, (hpaths ?_).2 ?_⟩
    · obtain rfl := eq_plainModel_of_run (prepare_eq_self rfl rfl rfl rfl) hm
      rw [activeBranch?_branchesOf ⟨_, keysUnique_onePropertyFields⟩]
      rfl
    · rw [prepare_onePropertyFields, situated_of_isFixed rfl]

/-- The field behind the condition is there for the schema by itself, and not for the same schema
as the only branch, which is in force. -/
theorem conditional_branch_lacks_field :
    ∃ m direct, references (.obj lateFields) = [] ∧
      run .default (branchesOf [.obj lateFields]) none SortedMap.empty = .ok m ∧
      run .default (.obj lateFields) none SortedMap.empty = .ok direct ∧
      m.root?.bind FieldNode.activeBranch? = some 0 ∧
      (m.get? (Pointer.build ["a"])).isSome = false ∧
      (direct.get? (Pointer.build ["a"])).isSome = true := by
  refine ⟨_, _, rfl, run_default _ _ _, run_default _ _ _, ?_⟩
  rw [prepare_branchesOf (List.forall_mem_singleton.2 rfl), List.map_singleton, prepare_lateFields]
  have hactive : (plainModel (branchesOf [.obj lateFields]) none SortedMap.empty).root?.bind
      FieldNode.activeBranch? = some 0 := by
    rw [activeBranch?_branchesOf ⟨_, keysUnique_lateFields⟩]
    rfl
  refine ⟨hactive, ?_, ?_⟩
  · rw [isSome_get?_branchesOf ⟨_, keysUnique_lateFields⟩ rfl hactive, ← Option.isSome_map,
      get?_build, fragmentAt, settled_of_no_branches rfl]
    rfl
  · rw [isSome_get?_plainModel]
    show ((build .empty (situated (.obj lateFields) none) none).get? _).isSome = true
    rw [situated_lateFields, ← Option.isSome_map, get?_build ⟨_, keysUnique_onePropertyFields⟩,
      fragmentAt, settled_of_no_branches rfl]
    rfl

end Pipeline
end SchemaForm
