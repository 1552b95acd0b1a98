import SchemaForm.Proofs.Schema.Prepare

/-!
# The normal form

Each new spelling touches a few keywords and leaves the look-up of all others alone. So what one of
them brings about stays when the others follow, and at the end no older spelling is left at any
place, unless the schema put one where a new spelling moves it. Normalizing the normal form again
changes nothing.
-/

namespace SchemaForm

namespace Json

/-- Every member of every object in a value, at any depth, has a property. -/
inductive EveryMember (P : String → Json → Prop) : Json → Prop where
  | null : EveryMember P .null
  | bool (b : Bool) : EveryMember P (.bool b)
  | num (n : Number) : EveryMember P (.num n)
  | str (s : String) : EveryMember P (.str s)
  | arr {items : List Json} (h : ∀ v ∈ items, EveryMember P v) : EveryMember P (.arr items)
  | obj {entries : List (String × Json)} (members : ∀ e ∈ entries, P e.1 e.2)
      (values : ∀ e ∈ entries, EveryMember P e.2) : EveryMember P (.obj entries)

attribute [simp] EveryMember.null EveryMember.bool EveryMember.num EveryMember.str

variable {P : String → Json → Prop}

@[simp] theorem everyMember_obj_iff {entries : Fields} :
    EveryMember P (.obj entries) ↔ ∀ e ∈ entries, P e.1 e.2 ∧ EveryMember P e.2 := by
  constructor
  · intro h
    cases h with
    | obj members values => exact fun e he => ⟨members e he, values e he⟩
  · intro h
    exact .obj (fun e he => (h e he).1) fun e he => (h e he).2

@[simp] theorem everyMember_arr_iff {items : List Json} :
    EveryMember P (.arr items) ↔ ∀ v ∈ items, EveryMember P v := by
  constructor
  · intro h
    cases h with
    | arr h => exact h
  · exact .arr

end Json

namespace Schema

open Json Entries

variable {keywords : Fields} {key : String}

/-! ### Look-up in other spellings -/

theorem get?_renameDefinitions (h : MembersUnique keywords)
    (hkey : key ∉ ["$defs", "definitions"]) :
    Entries.get? key (renameDefinitions keywords) = Entries.get? key keywords := by
  simp only [List.mem_cons, List.not_mem_nil, or_false, not_or] at hkey
  unfold renameDefinitions
  split
  · rfl
  · split
    · rw [get?_insert, if_neg (Ne.symm hkey.1), get?_swapErase h.nodup, if_neg (Ne.symm hkey.2)]
    · rfl

theorem get?_splitTuple (h : MembersUnique keywords)
    (hkey : key ∉ ["items", "prefixItems", "additionalItems"]) :
    Entries.get? key (splitTuple keywords) = Entries.get? key keywords := by
  simp only [List.mem_cons, List.not_mem_nil, or_false, not_or] at hkey
  obtain ⟨hitems, hprefix, hadditional⟩ := hkey
  unfold splitTuple
  split
  · next items _ =>
    have hnodup := nodup_keys_insert (nodup_keys_swapErase h.nodup "items") "prefixItems"
      (.arr items)
    dsimp only
    split <;>
      simp only [get?_insert, get?_swapErase hnodup, get?_swapErase h.nodup,
        if_neg (Ne.symm hitems), if_neg (Ne.symm hprefix), if_neg (Ne.symm hadditional)]
  · rfl

theorem get?_numberBound (h : MembersUnique keywords) {exclusive bound : String}
    (hkey : key ∉ [exclusive, bound]) :
    Entries.get? key (numberBound exclusive bound keywords) = Entries.get? key keywords := by
  simp only [List.mem_cons, List.not_mem_nil, or_false, not_or] at hkey
  unfold numberBound
  split
  · split
    · rw [get?_insert, if_neg (Ne.symm hkey.1), get?_swapErase h.nodup, if_neg (Ne.symm hkey.2)]
    · rw [get?_swapErase h.nodup, if_neg (Ne.symm hkey.1)]
  · rfl

/-- The keyword that takes a dependency. -/
def dependencyPlace (dependency : Json) : String :=
  if dependency.isArr then "dependentRequired" else "dependentSchemas"

/-- The value of that keyword with one dependency more. -/
def withDependency (v : Option Json) (dependency : String × Json) : Option Json :=
  match v with
  | none => some (.obj [dependency])
  | some (.obj entries) => some (.obj (Entries.insert dependency.1 dependency.2 entries))
  | some v => some v

theorem get?_moveDependency (keywords : Fields) (trigger : String) (dependency : Json)
    (keyword : String) :
    Entries.get? keyword (moveDependency keywords trigger dependency) =
      if dependencyPlace dependency = keyword then
        withDependency (Entries.get? keyword keywords) (trigger, dependency)
      else
        Entries.get? keyword keywords := by
  unfold moveDependency
  rw [← dependencyPlace]
  generalize dependencyPlace dependency = place
  by_cases hplace : place = keyword
  · subst hplace
    rw [if_pos rfl]
    dsimp only
    split
    · next hnone => rw [get?_insert, if_pos rfl, hnone, withDependency]
    · next entries hentries => rw [get?_insert, if_pos rfl, hentries, withDependency]
    · next v hobj hv =>
      rw [hv]
      cases v with
      | obj entries => exact absurd rfl (hobj entries)
      | _ => rfl
  · rw [if_neg hplace]
    dsimp only
    split
    · rw [get?_insert, if_neg hplace]
    · rw [get?_insert, if_neg hplace]
    · rfl

theorem get?_foldl_moveDependency (dependencies keywords : Fields) (keyword : String) :
    Entries.get? keyword
        (dependencies.foldl (fun acc entry => moveDependency acc entry.1 entry.2) keywords) =
      (dependencies.filter fun entry => dependencyPlace entry.2 == keyword).foldl withDependency
        (Entries.get? keyword keywords) := by
  induction dependencies generalizing keywords with
  | nil => rfl
  | cons entry rest ih =>
    rw [List.foldl_cons, ih, get?_moveDependency, List.filter_cons]
    by_cases hplace : dependencyPlace entry.2 = keyword
    · simp [hplace]
    · simp [hplace]

theorem get?_splitDependencies (keywords : Fields) (keyword : String) :
    Entries.get? keyword (splitDependencies keywords) =
      ((membersOf (Entries.get? "dependencies" keywords)).filter fun entry =>
        dependencyPlace entry.2 == keyword).foldl withDependency
          (Entries.get? keyword (Entries.swapErase "dependencies" keywords)) := by
  unfold splitDependencies
  dsimp only
  split
  · next dependencies hdependencies =>
    rw [hdependencies]
    exact get?_foldl_moveDependency dependencies _ keyword
  · next hobj =>
    have hnone : membersOf (Entries.get? "dependencies" keywords) = [] := by
      cases hv : Entries.get? "dependencies" keywords with
      | none => rfl
      | some v =>
        cases v with
        | obj dependencies => exact absurd hv (hobj dependencies)
        | _ => rfl
    rw [hnone]
    rfl

theorem get?_splitDependencies_of_ne (h : MembersUnique keywords)
    (hnames : key ≠ "dependentRequired") (hschemas : key ≠ "dependentSchemas") :
    Entries.get? key (splitDependencies keywords) =
      if "dependencies" = key then none else Entries.get? key keywords := by
  have hplace : ∀ entry : String × Json, (dependencyPlace entry.2 == key) = false := by
    intro entry
    unfold dependencyPlace
    split
    · exact beq_eq_false_iff_ne.2 (Ne.symm hnames)
    · exact beq_eq_false_iff_ne.2 (Ne.symm hschemas)
  rw [get?_splitDependencies, List.filter_eq_nil_iff.2 (by simp [hplace]), get?_swapErase h.nodup]
  rfl

/-! ### What each new spelling brings about -/

theorem contains_defs_renameDefinitions
    (hold : Entries.contains "definitions" (renameDefinitions keywords) = true) :
    Entries.contains "$defs" (renameDefinitions keywords) = true := by
  unfold renameDefinitions at hold ⊢
  split
  · next hdefs => exact hdefs
  · next hdefs =>
    rw [if_neg hdefs] at hold
    cases hdefinitions : Entries.get? "definitions" keywords with
    | none =>
      rw [hdefinitions, Entries.contains, hdefinitions] at hold
      cases hold
    | some definitions =>
      dsimp only
      rw [Entries.contains, get?_insert, if_pos rfl]
      rfl

/-- No list is left under `items`, unless there is one to take from `additionalItems`. -/
theorem items_splitTuple (h : MembersUnique keywords)
    (hadditional : ∀ v, Entries.get? "additionalItems" keywords = some v → v.isArr = false)
    (items : List Json) : Entries.get? "items" (splitTuple keywords) ≠ some (.arr items) := by
  unfold splitTuple
  split
  · next tuple _ =>
    have hnodup := nodup_keys_insert (nodup_keys_swapErase h.nodup "items") "prefixItems"
      (.arr tuple)
    have hkept : Entries.get? "additionalItems"
        ((Entries.swapErase "items" keywords).insert "prefixItems" (.arr tuple)) =
          Entries.get? "additionalItems" keywords := by
      rw [get?_insert, if_neg (by decide), get?_swapErase h.nodup, if_neg (by decide)]
    dsimp only
    rw [hkept]
    split
    · rw [get?_insert, if_pos rfl]
      exact fun heq => by cases heq
    · next schema _ hschema =>
      rw [get?_insert, if_pos rfl]
      intro heq
      have hnot := hadditional schema hschema
      cases heq
      cases hnot
    · rw [get?_swapErase hnodup, if_neg (by decide), get?_insert, if_neg (by decide),
        get?_swapErase h.nodup, if_pos rfl]
      exact fun heq => by cases heq
  · next hitems => exact hitems items

/-- No truth value is left under an exclusive bound, unless there is one to take from the plain
bound. -/
theorem exclusive_numberBound (h : MembersUnique keywords) {exclusive bound : String}
    (hbound : ∀ flag, Entries.get? bound keywords ≠ some (.bool flag)) (flag : Bool) :
    Entries.get? exclusive (numberBound exclusive bound keywords) ≠ some (.bool flag) := by
  unfold numberBound
  split
  · split
    · next limit hlimit _ =>
      rw [get?_insert, if_pos rfl, ← hlimit]
      exact hbound flag
    · rw [get?_swapErase h.nodup, if_pos rfl]
      exact fun heq => by cases heq
  · next hflag => exact hflag flag

/-- A plain bound goes where the exclusive one takes it over. -/
theorem bound_numberBound_of_true (h : MembersUnique keywords) {exclusive bound : String}
    (hne : exclusive ≠ bound) (hflag : Entries.get? exclusive keywords = some (.bool true)) :
    Entries.get? bound (numberBound exclusive bound keywords) = none := by
  unfold numberBound
  rw [hflag]
  dsimp only
  split
  · rw [get?_insert, if_neg hne, get?_swapErase h.nodup, if_pos rfl]
  · next hnot =>
    rw [get?_swapErase h.nodup, if_neg hne]
    exact Option.eq_none_iff_forall_not_mem.2 fun limit hlimit => hnot limit rfl hlimit

/-- Otherwise it stays. -/
theorem bound_numberBound_of_ne (h : MembersUnique keywords) {exclusive bound : String}
    (hne : exclusive ≠ bound) (hflag : Entries.get? exclusive keywords ≠ some (.bool true)) :
    Entries.get? bound (numberBound exclusive bound keywords) = Entries.get? bound keywords := by
  unfold numberBound
  split
  · next flag hfound =>
    split
    · exact absurd hfound hflag
    · rw [get?_swapErase h.nodup, if_neg hne]
  · rfl

/-! ### All spellings together -/

/-- The keywords that new spellings touch. -/
def respelled : List String :=
  ["$defs", "definitions", "items", "prefixItems", "additionalItems", "exclusiveMinimum", "minimum",
    "exclusiveMaximum", "maximum", "dependencies", "dependentRequired", "dependentSchemas"]

/-- Keys stay distinct from one new spelling to the next. -/
theorem membersUnique_steps (h : MembersUnique keywords) :
    let renamed := renameDefinitions keywords
    let split := splitTuple renamed
    let bounded := numberBound "exclusiveMinimum" "minimum" split
    MembersUnique renamed ∧ MembersUnique split ∧ MembersUnique bounded ∧
      MembersUnique (numberBound "exclusiveMaximum" "maximum" bounded) := by
  have hrenamed := membersUnique_renameDefinitions h
  have hsplit := membersUnique_splitTuple hrenamed
  have hbounded := membersUnique_numberBound "exclusiveMinimum" "minimum" hsplit
  exact ⟨hrenamed, hsplit, hbounded, membersUnique_numberBound _ _ hbounded⟩

/-- The first two new spellings leave all other keywords alone. -/
theorem get?_splitTuple_renameDefinitions (h : MembersUnique keywords)
    (hkey : key ∉ ["$defs", "definitions", "items", "prefixItems", "additionalItems"]) :
    Entries.get? key (splitTuple (renameDefinitions keywords)) = Entries.get? key keywords := by
  have hnot : ∀ keys, keys ⊆ ["$defs", "definitions", "items", "prefixItems", "additionalItems"] →
      key ∉ keys := fun keys hsub hmem => hkey (hsub hmem)
  rw [get?_splitTuple (membersUnique_steps h).1 (hnot _ (by decide)),
    get?_renameDefinitions h (hnot _ (by decide))]

/-- The last new spelling leaves what the others have made of all other keywords. -/
theorem get?_currentKeywords_eq (h : MembersUnique keywords)
    (hkey : key ∉ ["dependencies", "dependentRequired", "dependentSchemas"]) :
    Entries.get? key (currentKeywords keywords) =
      Entries.get? key (numberBound "exclusiveMaximum" "maximum"
        (numberBound "exclusiveMinimum" "minimum" (splitTuple (renameDefinitions keywords)))) := by
  obtain ⟨-, -, -, hlast⟩ := membersUnique_steps h
  simp only [List.mem_cons, List.not_mem_nil, or_false, not_or] at hkey
  rw [currentKeywords, get?_splitDependencies_of_ne hlast hkey.2.1 hkey.2.2,
    if_neg (Ne.symm hkey.1)]

theorem get?_currentKeywords (h : MembersUnique keywords) (hkey : key ∉ respelled) :
    Entries.get? key (currentKeywords keywords) = Entries.get? key keywords := by
  obtain ⟨-, hsplit, hbounded, -⟩ := membersUnique_steps h
  have hnot : ∀ keys, keys ⊆ respelled → key ∉ keys := fun keys hsub hmem => hkey (hsub hmem)
  rw [get?_currentKeywords_eq h (hnot _ (by decide)),
    get?_numberBound hbounded (hnot _ (by decide)), get?_numberBound hsplit (hnot _ (by decide)),
    get?_splitTuple_renameDefinitions h (hnot _ (by decide))]

theorem contains_currentKeywords (h : MembersUnique keywords)
    (hkey : key ∈ ["$defs", "definitions"]) :
    Entries.contains key (currentKeywords keywords) =
      Entries.contains key (renameDefinitions keywords) := by
  obtain ⟨hrenamed, hsplit, hbounded, -⟩ := membersUnique_steps h
  have hnot : ∀ keys : List String, (∀ k ∈ ["$defs", "definitions"], k ∉ keys) → key ∉ keys :=
    fun _ hkeys => hkeys key hkey
  rw [Entries.contains, get?_currentKeywords_eq h (hnot _ (by decide)),
    get?_numberBound hbounded (hnot _ (by decide)), get?_numberBound hsplit (hnot _ (by decide)),
    get?_splitTuple hrenamed (hnot _ (by decide)), Entries.contains]

/-- No older spelling is left among the keywords; `definitions` may stand beside `$defs`. -/
structure Current (keywords : Fields) : Prop where
  items : ∀ items, Entries.get? "items" keywords ≠ some (.arr items)
  exclusiveMinimum : ∀ flag, Entries.get? "exclusiveMinimum" keywords ≠ some (.bool flag)
  exclusiveMaximum : ∀ flag, Entries.get? "exclusiveMaximum" keywords ≠ some (.bool flag)
  dependencies : Entries.get? "dependencies" keywords = none
  definitions : Entries.contains "definitions" keywords = true →
    Entries.contains "$defs" keywords = true

/-- A member that a new spelling moves does not bring an older spelling with it: no list stands
under `additionalItems`, and no truth value under a bound. -/
def Movable (key : String) (v : Json) : Prop :=
  (key = "additionalItems" → v.isArr = false) ∧
    (key = "minimum" ∨ key = "maximum" → ∀ flag, v ≠ .bool flag)

theorem movable_obj {entries : Fields} : Movable key (.obj entries) :=
  ⟨fun _ => rfl, fun _ _ heq => by cases heq⟩

theorem current_currentKeywords (h : MembersUnique keywords)
    (hmovable : ∀ e ∈ keywords, Movable e.1 e.2) : Current (currentKeywords keywords) := by
  obtain ⟨hrenamed, hsplit, hbounded, hlast⟩ := membersUnique_steps h
  have hfound : ∀ {key v}, Entries.get? key keywords = some v → Movable key v :=
    fun hv => hmovable _ (mem_of_get? hv)
  constructor
  · intro items
    rw [get?_currentKeywords_eq h (by decide), get?_numberBound hbounded (by decide),
      get?_numberBound hsplit (by decide)]
    refine items_splitTuple hrenamed (fun v hv => ?_) items
    rw [get?_renameDefinitions h (by decide)] at hv
    exact (hfound hv).1 rfl
  · intro flag
    rw [get?_currentKeywords_eq h (by decide), get?_numberBound hbounded (by decide)]
    refine exclusive_numberBound hsplit (fun flag hv => ?_) flag
    rw [get?_splitTuple_renameDefinitions h (by decide)] at hv
    exact (hfound hv).2 (.inl rfl) flag rfl
  · intro flag
    rw [get?_currentKeywords_eq h (by decide)]
    refine exclusive_numberBound hbounded (fun flag hv => ?_) flag
    rw [get?_numberBound hsplit (by decide),
      get?_splitTuple_renameDefinitions h (by decide)] at hv
    exact (hfound hv).2 (.inr rfl) flag rfl
  · rw [currentKeywords, get?_splitDependencies_of_ne hlast (by decide) (by decide), if_pos rfl]
  · rw [contains_currentKeywords h (by decide), contains_currentKeywords h (by decide)]
    exact contains_defs_renameDefinitions

/-- The current spelling stays. -/
theorem Current.currentKeywords_eq_self (h : Current keywords) :
    currentKeywords keywords = keywords := by
  have hrename : renameDefinitions keywords = keywords := by
    unfold renameDefinitions
    split
    · rfl
    · next hdefs =>
      have hnone : Entries.get? "definitions" keywords = none := by
        rw [← Option.not_isSome_iff_eq_none]
        exact fun hsome => hdefs (h.definitions hsome)
      rw [hnone]
  have hsplit : splitTuple keywords = keywords := by
    unfold splitTuple
    split
    · next items hitems => exact absurd hitems (h.items items)
    · rfl
  have hbound : ∀ {exclusive bound}, (∀ flag, Entries.get? exclusive keywords ≠ some (.bool flag)) →
      numberBound exclusive bound keywords = keywords := by
    intro exclusive bound hflag
    unfold numberBound
    split
    · next flag hfound => exact absurd hfound (hflag flag)
    · rfl
  rw [currentKeywords, hrename, hsplit, hbound h.exclusiveMinimum, hbound h.exclusiveMaximum,
    splitDependencies, h.dependencies, swapErase_of_get?_eq_none h.dependencies]

/-- What makes objects out of the objects below brings no older spelling back. -/
theorem Current.mapSchemas (h : Current keywords) {f : Json → Json}
    (hf : ∀ entries, (f (.obj entries)).isObj = true) : Current (mapSchemas f keywords) := by
  have hcontains : ∀ key, Entries.contains key (Schema.mapSchemas f keywords) =
      Entries.contains key keywords := by
    intro key
    rw [Entries.contains, get?_mapSchemas, Option.isSome_map, Entries.contains]
  constructor
  · intro items hitems
    rw [get?_mapSchemas] at hitems
    obtain ⟨v, hv, heq⟩ := Option.map_eq_some_iff.1 hitems
    change mapHeld f (some .single) v = _ at heq
    cases v with
    | obj entries =>
      have hobj := hf entries
      rw [show f (.obj entries) = .arr items from heq] at hobj
      cases hobj
    | arr items' => exact h.items items' hv
    | _ => cases heq
  · intro flag
    rw [get?_mapSchemas_of_not_holder f rfl]
    exact h.exclusiveMinimum flag
  · intro flag
    rw [get?_mapSchemas_of_not_holder f rfl]
    exact h.exclusiveMaximum flag
  · rw [get?_mapSchemas_of_not_holder f rfl]
    exact h.dependencies
  · rw [hcontains, hcontains]
    exact h.definitions

/-! ### At every place -/

/-- Induction on a schema by way of the schemas below its current spelling. -/
@[elab_as_elim]
theorem induct_current {motive : Json → Prop} (leaf : ∀ v : Json, v.isObj = false → motive v)
    (object : ∀ keywords : Fields, (∀ e ∈ below (currentKeywords keywords), motive e.2) →
      motive (.obj keywords)) (v : Json) : motive v := by
  cases v with
  | obj keywords =>
    refine object keywords fun e he => ?_
    have := levels_lt_of_mem_below he
    exact induct_current leaf object e.2
  | _ => exact leaf _ rfl
termination_by levels v

/-- A new spelling puts no list under `additionalItems` and no truth value under a bound. -/
theorem spelled_movable : Spelled fun key v => Movable key v ∧ v.EveryMember Movable where
  move _ place v hplace h := by
    have hne : place ∉ ["additionalItems", "minimum", "maximum"] := by
      revert place
      decide
    simp only [List.mem_cons, List.not_mem_nil, or_false, not_or] at hne
    exact ⟨⟨fun heq => absurd heq hne.1, fun heq => absurd heq (not_or.2 hne.2)⟩, h.2⟩
  allow _ _ := ⟨movable_obj, everyMember_obj_iff.2 (by simp)⟩
  part _ entries e h he := by
    refine ⟨movable_obj, everyMember_obj_iff.2 ?_⟩
    simpa using everyMember_obj_iff.1 h.2 e he
  extend _ entries name v h hv := by
    refine ⟨movable_obj, everyMember_obj_iff.2 fun e he => ?_⟩
    rcases Entries.mem_insert he with rfl | he
    · exact everyMember_obj_iff.1 hv.2 _ List.mem_cons_self
    · exact everyMember_obj_iff.1 h.2 e he

theorem isObj_normalize (keywords : Fields) : (normalize (.obj keywords)).isObj = true := by
  rw [normalize_obj]
  rfl

theorem everyMember_of_mem_below {P : String → Json → Prop}
    (h : ∀ entry ∈ keywords, entry.2.EveryMember P) {e : String × Json} (he : e ∈ below keywords) :
    e.2.EveryMember P :=
  of_mem_below (fun _ h entry hentry => (everyMember_obj_iff.1 h entry hentry).2)
    (fun _ h => everyMember_arr_iff.1 h) h he

/-- What is below the current spelling can be normalized as the schema can. -/
theorem normalizable_of_mem_below (hunique : (Json.obj keywords).KeysUnique)
    (hmovable : (Json.obj keywords).EveryMember Movable) {e : String × Json}
    (he : e ∈ below (currentKeywords keywords)) : e.2.KeysUnique ∧ e.2.EveryMember Movable := by
  have hcurrent := membersUnique_currentKeywords (keysUnique_obj_iff.1 hunique)
  have hmembers := spelled_movable.currentKeywords (everyMember_obj_iff.1 hmovable)
  exact ⟨keysUnique_of_mem_below hcurrent he,
    everyMember_of_mem_below (fun entry hentry => (hmembers entry hentry).2) he⟩

theorem current_mapSchemas_normalize (hunique : (Json.obj keywords).KeysUnique)
    (hmovable : (Json.obj keywords).EveryMember Movable) :
    Current (mapSchemas normalize (currentKeywords keywords)) := by
  refine (current_currentKeywords (keysUnique_obj_iff.1 hunique) ?_).mapSchemas isObj_normalize
  exact fun e he => (everyMember_obj_iff.1 hmovable e he).1

theorem current_of_reached {schema : Json} (hunique : schema.KeysUnique)
    (hmovable : schema.EveryMember Movable) {passed : List Fields} {place : String}
    (h : Reached (normalize schema) passed place keywords) : Current keywords := by
  induction schema using induct_current generalizing passed place with
  | leaf v hv =>
    rw [normalize_of_not_obj hv] at h
    cases h <;> cases hv
  | object outer ih =>
    rw [normalize_obj] at h
    cases h with
    | here => exact current_mapSchemas_normalize hunique hmovable
    | step he h =>
      obtain ⟨original, horiginal, rfl⟩ := exists_of_mem_below_mapSchemas he
      obtain ⟨hunique, hmovable⟩ := normalizable_of_mem_below hunique hmovable horiginal
      exact ih original horiginal hunique hmovable h

theorem normalize_normalize {schema : Json} (hunique : schema.KeysUnique)
    (hmovable : schema.EveryMember Movable) : normalize (normalize schema) = normalize schema := by
  induction schema using induct_current with
  | leaf v hv => rw [normalize_of_not_obj hv, normalize_of_not_obj hv]
  | object keywords ih =>
    have hcurrent := current_mapSchemas_normalize hunique hmovable
    rw [normalize_obj, normalize_obj, hcurrent.currentKeywords_eq_self,
      mapSchemas_mapSchemas isObj_normalize]
    refine congrArg Json.obj (mapSchemas_congr fun e he => ?_)
    obtain ⟨hunique, hmovable⟩ := normalizable_of_mem_below hunique hmovable he
    exact ih e he hunique hmovable

/-- The normal form is canonical. At every place that a traversal visits no older spelling is left:
`items` holds no list, the exclusive bounds no truth value, nothing stands under `dependencies`, and
`definitions` only beside `$defs`. And normalizing again changes nothing, not even the order of
keywords. -/
theorem normalize_canonical (schema : Document) (hmovable : (schema : Json).EveryMember Movable) :
    (∀ visit ∈ traverse (normalize schema), ∃ keywords, visit.2 = .obj keywords ∧
        Current keywords) ∧
      normalize (normalize schema) = normalize schema := by
  refine ⟨fun visit hvisit => ?_, normalize_normalize schema.keysUnique hmovable⟩
  obtain ⟨passed, place, keywords, hreached, rfl⟩ := mem_traverse_iff.1 hvisit
  exact ⟨keywords, rfl, current_of_reached schema.keysUnique hmovable hreached⟩

/-- Older spellings at the root and below, some of them inside what another one moves. -/
def olderSpellings : Json :=
  .obj [("definitions", .obj
      [("size", .obj [("maximum", .int 9), ("exclusiveMaximum", .bool true)])]),
    ("dependencies", .obj [("a", .arr [.str "b"]), ("b", .obj [("definitions", .empty)])]),
    ("items", .arr [.obj [("items", .arr [.bool true]), ("additionalItems", .bool false)]])]

theorem normalize_canonical_olderSpellings :
    olderSpellings.KeysUnique ∧ olderSpellings.EveryMember Movable ∧
      (normalize olderSpellings).equiv (.obj
        [("$defs", .obj [("size", .obj [("exclusiveMaximum", .int 9)])]),
          ("dependentRequired", .obj [("a", .arr [.str "b"])]),
          ("dependentSchemas", .obj [("b", .obj [("$defs", .empty)])]),
          ("prefixItems", .arr [.obj [("prefixItems", .arr [.bool true]),
            ("items", .bool false)]])]) = true ∧
      (∀ visit ∈ traverse (normalize olderSpellings), ∃ keywords, visit.2 = .obj keywords ∧
        Current keywords) ∧
      normalize (normalize olderSpellings) = normalize olderSpellings := by
  have hunique : olderSpellings.KeysUnique := by simp [olderSpellings]
  have hmovable : olderSpellings.EveryMember Movable := by
    simp [olderSpellings, Movable, isArr, Json.int, Json.empty]
  exact ⟨hunique, hmovable, by rfl, normalize_canonical ⟨olderSpellings, hunique⟩ hmovable⟩

end Schema
end SchemaForm
