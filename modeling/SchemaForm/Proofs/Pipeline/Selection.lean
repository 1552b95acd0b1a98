import SchemaForm.Proofs.Pipeline.Plain
import SchemaForm.Proofs.Pointer
import SchemaForm.Proofs.Schema.KeysUnique
import SchemaForm.Proofs.SortedMap

/-!
# Which choices count

The pass over the selections looks for combinators on its own walk through properties, on which the
chosen branches stand in their places. `Selection.keywordsAt` is what this walk meets at the end of
some segments; a choice counts if and only if the keywords met at its path offer a branch of its
number.
-/

namespace SchemaForm

namespace Selection

open Json Schema

variable {selections : Selections}

/-! ### Unfolding -/

theorem resolve_obj (selections : Selections) (fields : Fields) (path : String) :
    resolve selections (.obj fields) path =
      (.obj (resolveBelow selections (choose selections path fields).1 path).1,
        (choose selections path fields).2 ++
          (resolveBelow selections (choose selections path fields).1 path).2) := by
  rw [resolve]

theorem resolve_of_not_obj {schema : Json} (h : ∀ fields, schema ≠ .obj fields)
    (selections : Selections) (path : String) :
    resolve selections schema path = (schema, []) := by
  cases schema with
  | obj fields => exact absurd rfl (h fields)
  | _ => rw [resolve]; simp

/-- What the value of one keyword becomes. -/
def resolveValue (selections : Selections) (keyword : String) (inner : Fields) (path : String) :
    Fields × List Pinned :=
  if keyword = "properties" then resolveNamed selections inner path else (inner, [])

theorem resolveBelow_nil (selections : Selections) (path : String) :
    resolveBelow selections [] path = ([], []) := by
  rw [resolveBelow]

theorem resolveBelow_cons_obj (selections : Selections) (keyword : String) (inner rest : Fields)
    (path : String) :
    resolveBelow selections ((keyword, .obj inner) :: rest) path =
      ((keyword, .obj (resolveValue selections keyword inner path).1) ::
          (resolveBelow selections rest path).1,
        (resolveValue selections keyword inner path).2 ++
          (resolveBelow selections rest path).2) := by
  rw [resolveBelow]
  rfl

theorem resolveBelow_cons_of_not_obj {v : Json} (h : ∀ inner, v ≠ .obj inner)
    (selections : Selections) (keyword : String) (rest : Fields) (path : String) :
    resolveBelow selections ((keyword, v) :: rest) path =
      ((keyword, v) :: (resolveBelow selections rest path).1,
        (resolveBelow selections rest path).2) := by
  cases v with
  | obj inner => exact absurd rfl (h inner)
  | _ => rw [resolveBelow]; simp

theorem resolveNamed_nil (selections : Selections) (path : String) :
    resolveNamed selections [] path = ([], []) := by
  rw [resolveNamed]

theorem resolveNamed_cons (selections : Selections) (name : String) (schema : Json)
    (rest : Fields) (path : String) :
    resolveNamed selections ((name, schema) :: rest) path =
      ((name, (resolve selections schema (Pointer.append path name)).1) ::
          (resolveNamed selections rest path).1,
        (resolve selections schema (Pointer.append path name)).2 ++
          (resolveNamed selections rest path).2) := by
  rw [resolveNamed]

/-- Values that are no objects are kept. -/
theorem resolveBelow_of_values {fields : Fields}
    (h : ∀ entry ∈ fields, ∀ inner, entry.2 ≠ .obj inner) (selections : Selections)
    (path : String) : resolveBelow selections fields path = (fields, []) := by
  induction fields with
  | nil => rw [resolveBelow_nil]
  | cons entry rest ih =>
    have hrest := ih fun other hother => h other (List.mem_cons_of_mem _ hother)
    rw [resolveBelow_cons_of_not_obj (h entry List.mem_cons_self), hrest]

/-! ### Where nothing is chosen -/

theorem choose_of_unchosen {path : String} (h : selections.get? path = none) (fields : Fields) :
    choose selections path fields = (fields, []) := by
  unfold choose chosen?
  rw [h]
  cases branches? fields <;> rfl

/-- Nothing is chosen below a path. -/
abbrev UnchosenBelow (selections : Selections) : String → Prop :=
  Pointer.AllBelow (selections.get? · = none)

/-- Where nothing is chosen, the pass changes nothing and notes nothing. -/
theorem resolve_of_unchosen (selections : Selections) :
    (∀ schema path, selections.get? path = none → UnchosenBelow selections path →
      resolve selections schema path = (schema, [])) ∧
    (∀ fields path, UnchosenBelow selections path →
      resolveBelow selections fields path = (fields, [])) ∧
    (∀ properties path, UnchosenBelow selections path →
      resolveNamed selections properties path = (properties, [])) := by
  apply resolve.mutual_induct selections
    (fun schema path => selections.get? path = none → UnchosenBelow selections path →
      resolve selections schema path = (schema, []))
    (fun fields path => UnchosenBelow selections path →
      resolveBelow selections fields path = (fields, []))
    (fun properties path => UnchosenBelow selections path →
      resolveNamed selections properties path = (properties, []))
  case case1 =>
    intro path fields below found _ ih hpath hbelow
    have hrest := ih hbelow
    rw [choose_of_unchosen hpath] at hrest
    rw [resolve_obj, choose_of_unchosen hpath, hrest]
    rfl
  case case2 =>
    intro schema path hschema _ _
    exact resolve_of_not_obj hschema selections path
  case case3 =>
    intro path _
    exact resolveBelow_nil selections path
  case case4 =>
    intro path keyword inner rest below found _ others more _ ihNamed ihRest hbelow
    have hvalue : resolveValue selections keyword inner path = (inner, []) := by
      unfold resolveValue
      split
      · exact ihNamed hbelow
      · rfl
    rw [resolveBelow_cons_obj, hvalue, ihRest hbelow]
    rfl
  case case5 =>
    intro path keyword v rest hv others more _ ih hbelow
    rw [resolveBelow_cons_of_not_obj (fun inner heq => hv inner heq), ih hbelow]
  case case6 =>
    intro path _
    exact resolveNamed_nil selections path
  case case7 =>
    intro path name schema rest resolved found _ others more _ ih ihRest hbelow
    obtain ⟨hchild, hchildren⟩ := hbelow.append name
    rw [resolveNamed_cons, ih hchild hchildren, ihRest hbelow]
    rfl

/-! ### Distinct keys -/

theorem mem_of_chosen? {path : String} {fields : Fields} {option : Json}
    {combinator : Combinator} (h : chosen? selections path fields = some (option, combinator)) :
    ∃ kind options index, branches? fields = some (kind, options) ∧
      selections.get? path = some index ∧ options[index]? = some option ∧
      combinator = Combinator.pinned kind options index := by
  unfold chosen? at h
  split at h
  · next kind options index hbranches hindex =>
    obtain ⟨found, hfound, heq⟩ := Option.map_eq_some_iff.1 h
    cases heq
    exact ⟨kind, options, index, hbranches, hindex, hfound, rfl⟩
  · cases h

theorem membersUnique_choose (selections : Selections) (path : String) {fields : Fields}
    (h : MembersUnique fields) : MembersUnique (choose selections path fields).1 := by
  unfold choose
  split
  · next option combinator hchosen =>
    obtain ⟨kind, options, index, hbranches, -, hoption, -⟩ := mem_of_chosen? hchosen
    obtain ⟨keyword, -, hoptions⟩ := mem_of_branches? hbranches
    refine membersUnique_absorb (h.eraseAll _) ?_
    exact keysUnique_arr_iff.1 (h.get? hoptions) option (List.mem_of_getElem? hoption)
  · exact h

theorem keys_resolveBelow (selections : Selections) (fields : Fields) (path : String) :
    Entries.keys (resolveBelow selections fields path).1 = Entries.keys fields := by
  induction fields with
  | nil => rw [resolveBelow_nil]
  | cons entry rest ih =>
    obtain ⟨keyword, v⟩ := entry
    cases v with
    | obj inner => rw [resolveBelow_cons_obj, Entries.keys_cons, Entries.keys_cons, ih]
    | _ =>
      rw [resolveBelow_cons_of_not_obj (by simp), Entries.keys_cons, Entries.keys_cons, ih]

theorem keys_resolveNamed (selections : Selections) (properties : Fields) (path : String) :
    Entries.keys (resolveNamed selections properties path).1 = Entries.keys properties := by
  induction properties with
  | nil => rw [resolveNamed_nil]
  | cons entry rest ih => rw [resolveNamed_cons, Entries.keys_cons, Entries.keys_cons, ih]

theorem keysUnique_resolve (selections : Selections) :
    (∀ schema path, schema.KeysUnique → (resolve selections schema path).1.KeysUnique) ∧
    (∀ fields path, MembersUnique fields → MembersUnique (resolveBelow selections fields path).1) ∧
    (∀ properties path, MembersUnique properties →
      MembersUnique (resolveNamed selections properties path).1) := by
  apply resolve.mutual_induct selections
    (fun schema path => schema.KeysUnique → (resolve selections schema path).1.KeysUnique)
    (fun fields path => MembersUnique fields →
      MembersUnique (resolveBelow selections fields path).1)
    (fun properties path => MembersUnique properties →
      MembersUnique (resolveNamed selections properties path).1)
  case case1 =>
    intro path fields below found _ ih h
    rw [resolve_obj]
    exact keysUnique_obj_iff.2 (ih (membersUnique_choose selections path (keysUnique_obj_iff.1 h)))
  case case2 =>
    intro schema path hschema h
    rw [resolve_of_not_obj hschema]
    exact h
  case case3 =>
    intro path h
    rw [resolveBelow_nil]
    exact h
  case case4 =>
    intro path keyword inner rest below found _ others more _ ihNamed ihRest h
    obtain ⟨hkey, hv, hrest⟩ := membersUnique_cons_iff.1 h
    rw [resolveBelow_cons_obj, membersUnique_cons_iff, keys_resolveBelow]
    refine ⟨hkey, keysUnique_obj_iff.2 ?_, ihRest hrest⟩
    unfold resolveValue
    split
    · exact ihNamed (keysUnique_obj_iff.1 hv)
    · exact keysUnique_obj_iff.1 hv
  case case5 =>
    intro path keyword v rest hv others more _ ih h
    obtain ⟨hkey, hvalue, hrest⟩ := membersUnique_cons_iff.1 h
    rw [resolveBelow_cons_of_not_obj (fun inner heq => hv inner heq), membersUnique_cons_iff,
      keys_resolveBelow]
    exact ⟨hkey, hvalue, ih hrest⟩
  case case6 =>
    intro path h
    rw [resolveNamed_nil]
    exact h
  case case7 =>
    intro path name schema rest resolved found _ others more _ ih ihRest h
    obtain ⟨hkey, hv, hrest⟩ := membersUnique_cons_iff.1 h
    rw [resolveNamed_cons, membersUnique_cons_iff, keys_resolveNamed]
    exact ⟨hkey, ih hv, ihRest hrest⟩

/-! ### The walk -/

/-- The schema of a property among keywords. -/
def property? (name : String) (fields : Fields) : Option Json :=
  ((Entries.get? "properties" fields).bind fields?).bind (Entries.get? name)

/-- The keywords that the walk meets at the end of segments, before a branch is put in their
place. -/
def keywordsAt (selections : Selections) : List String → Json → String → Option Fields
  | [], schema, _ => schema.fields?
  | name :: rest, schema, path =>
    (schema.fields?.bind fun fields => property? name (choose selections path fields).1).bind
      fun schema => keywordsAt selections rest schema (Pointer.append path name)

/-- The choice that counts at the end of segments. -/
def choiceAt (selections : Selections) (segments : List String) (schema : Json) (path : String) :
    Option Combinator :=
  (keywordsAt selections segments schema path).bind fun fields =>
    (chosen? selections (Pointer.join path segments) fields).map Prod.snd

theorem choiceAt_nil (fields : Fields) (path : String) :
    choiceAt selections [] (.obj fields) path =
      (chosen? selections path fields).map Prod.snd := by
  unfold choiceAt
  rw [Pointer.join_nil]
  rfl

theorem choiceAt_cons (name : String) (rest : List String) (fields : Fields) (path : String) :
    choiceAt selections (name :: rest) (.obj fields) path =
      (property? name (choose selections path fields).1).bind fun schema =>
        choiceAt selections rest schema (Pointer.append path name) := by
  unfold choiceAt
  rw [Pointer.join_cons]
  show ((property? name (choose selections path fields).1).bind _).bind _ = _
  rw [Option.bind_assoc]

theorem choiceAt_of_not_obj {schema : Json} (h : ∀ fields, schema ≠ .obj fields)
    (segments : List String) (path : String) : choiceAt selections segments schema path = none := by
  have hfields : schema.fields? = none := by
    cases schema with
    | obj fields => exact absurd rfl (h fields)
    | _ => rfl
  unfold choiceAt
  cases segments with
  | nil => rw [keywordsAt, hfields]; rfl
  | cons name rest => rw [keywordsAt, hfields]; rfl

/-- A choice counts at a path with its number if the keywords met there offer a branch of that
number. -/
theorem choiceAt_eq_some_iff {segments : List String} {schema : Json} {path : String}
    {combinator : Combinator} :
    choiceAt selections segments schema path = some combinator ↔
      ∃ kind options index,
        (keywordsAt selections segments schema path).bind branches? = some (kind, options) ∧
        selections.get? (Pointer.join path segments) = some index ∧ index < options.length ∧
        combinator = Combinator.pinned kind options index := by
  unfold choiceAt
  constructor
  · intro h
    obtain ⟨fields, hfields, hmap⟩ := Option.bind_eq_some_iff.1 h
    obtain ⟨⟨option, found⟩, hchosen, rfl⟩ := Option.map_eq_some_iff.1 hmap
    obtain ⟨kind, options, index, hbranches, hindex, hoption, rfl⟩ := mem_of_chosen? hchosen
    obtain ⟨hlt, -⟩ := List.getElem?_eq_some_iff.1 hoption
    exact ⟨kind, options, index, Option.bind_eq_some_iff.2 ⟨fields, hfields, hbranches⟩, hindex,
      hlt, rfl⟩
  · rintro ⟨kind, options, index, hoffer, hindex, hlt, rfl⟩
    obtain ⟨fields, hfields, hbranches⟩ := Option.bind_eq_some_iff.1 hoffer
    rw [hfields, Option.bind_some, chosen?, hbranches, hindex]
    dsimp only
    rw [List.getElem?_eq_getElem hlt]
    rfl

theorem property?_cons (name keyword : String) (v : Json) (rest : Fields) :
    property? name ((keyword, v) :: rest) =
      if keyword = "properties" then v.fields?.bind (Entries.get? name)
      else property? name rest := by
  unfold property?
  rw [Entries.get?_cons]
  split <;> rfl

theorem property?_of_notMem {fields : Fields} (h : "properties" ∉ Entries.keys fields)
    (name : String) : property? name fields = none := by
  unfold property?
  rw [Entries.get?_eq_none_iff.2 h]
  rfl

theorem mem_choose_iff {path : String} {fields : Fields} {found : Pinned} :
    found ∈ (choose selections path fields).2 ↔
      found.path = path ∧
        (chosen? selections path fields).map Prod.snd = some found.combinator := by
  unfold choose
  cases chosen? selections path fields with
  | none =>
    constructor
    · intro h
      cases h
    · rintro ⟨-, h⟩
      cases h
  | some choice =>
    obtain ⟨option, combinator⟩ := choice
    dsimp only
    rw [List.mem_singleton]
    constructor
    · rintro rfl
      exact ⟨rfl, rfl⟩
    · obtain ⟨foundPath, foundCombinator⟩ := found
      rintro ⟨hpath, h⟩
      cases hpath
      cases h
      rfl

/-- A choice counts at a path below a schema, the path of the schema included. -/
def Counts (selections : Selections) (schema : Json) (path : String) (found : Pinned) : Prop :=
  ∃ segments, found.path = Pointer.join path segments ∧
    choiceAt selections segments schema path = some found.combinator

/-- A choice counts at a property or below one. -/
def CountsBelow (selections : Selections) (property : String → Option Json) (path : String)
    (found : Pinned) : Prop :=
  ∃ name rest, found.path = Pointer.join path (name :: rest) ∧
    ((property name).bind fun schema =>
      choiceAt selections rest schema (Pointer.append path name)) = some found.combinator

theorem counts_obj_iff {fields : Fields} {path : String} {found : Pinned} :
    Counts selections (.obj fields) path found ↔
      found ∈ (choose selections path fields).2 ∨
        CountsBelow selections (property? · (choose selections path fields).1) path found := by
  rw [mem_choose_iff]
  constructor
  · rintro ⟨segments, hpath, hchoice⟩
    cases segments with
    | nil =>
      rw [Pointer.join_nil] at hpath
      rw [choiceAt_nil] at hchoice
      exact Or.inl ⟨hpath, hchoice⟩
    | cons name rest =>
      rw [choiceAt_cons] at hchoice
      exact Or.inr ⟨name, rest, hpath, hchoice⟩
  · rintro (⟨hpath, hchoice⟩ | ⟨name, rest, hpath, hchoice⟩)
    · refine ⟨[], ?_, ?_⟩
      · rw [Pointer.join_nil]
        exact hpath
      · rw [choiceAt_nil]
        exact hchoice
    · refine ⟨name :: rest, hpath, ?_⟩
      rw [choiceAt_cons]
      exact hchoice

theorem not_counts_of_not_obj {schema : Json} (h : ∀ fields, schema ≠ .obj fields)
    (path : String) (found : Pinned) : ¬ Counts selections schema path found := by
  rintro ⟨segments, -, hchoice⟩
  rw [choiceAt_of_not_obj h] at hchoice
  cases hchoice

theorem not_countsBelow_of_none {property : String → Option Json}
    (h : ∀ name, property name = none) (path : String) (found : Pinned) :
    ¬ CountsBelow selections property path found := by
  rintro ⟨name, rest, -, hchoice⟩
  rw [h name] at hchoice
  cases hchoice

/-- Where the first keyword is `properties`, nothing else counts. -/
theorem countsBelow_cons_properties {v : Json} {rest : Fields}
    (hrest : "properties" ∉ Entries.keys rest) (path : String) (found : Pinned) :
    CountsBelow selections (property? · (("properties", v) :: rest)) path found ↔
      CountsBelow selections (fun name => v.fields?.bind (Entries.get? name)) path found ∨
        CountsBelow selections (property? · rest) path found := by
  have hnone : ¬ CountsBelow selections (property? · rest) path found :=
    not_countsBelow_of_none (property?_of_notMem hrest) path found
  simp only [property?_cons, if_true, hnone, or_false]

theorem countsBelow_cons_of_ne {keyword : String} (h : keyword ≠ "properties") (v : Json)
    (rest : Fields) (path : String) (found : Pinned) :
    CountsBelow selections (property? · ((keyword, v) :: rest)) path found ↔
      CountsBelow selections (property? · rest) path found := by
  simp only [property?_cons, h, if_false]

/-- Among named schemas a choice counts in the first one or in the others. -/
theorem countsBelow_named_cons_iff {name : String} {schema : Json} {rest : Fields}
    (hname : name ∉ Entries.keys rest) {path : String} {found : Pinned} :
    CountsBelow selections (Entries.get? · ((name, schema) :: rest)) path found ↔
      Counts selections schema (Pointer.append path name) found ∨
        CountsBelow selections (Entries.get? · rest) path found := by
  constructor
  · rintro ⟨other, segments, hpath, hchoice⟩
    dsimp only at hchoice
    rw [Entries.get?_cons] at hchoice
    by_cases heq : name = other
    · subst heq
      rw [if_pos rfl] at hchoice
      rw [Pointer.join_cons] at hpath
      exact Or.inl ⟨segments, hpath, hchoice⟩
    · rw [if_neg heq] at hchoice
      exact Or.inr ⟨other, segments, hpath, hchoice⟩
  · rintro (⟨segments, hpath, hchoice⟩ | ⟨other, segments, hpath, hchoice⟩)
    · refine ⟨name, segments, ?_, ?_⟩
      · rw [Pointer.join_cons]
        exact hpath
      · dsimp only
        rw [Entries.get?_cons, if_pos rfl]
        exact hchoice
    · refine ⟨other, segments, hpath, ?_⟩
      dsimp only at hchoice ⊢
      rw [Entries.get?_cons, if_neg]
      · exact hchoice
      · rintro rfl
        rw [Entries.get?_eq_none_iff.2 hname] at hchoice
        cases hchoice

/-- The pass notes exactly the choices that count on its walk. -/
theorem mem_resolve_iff (selections : Selections) :
    (∀ schema path, schema.KeysUnique → ∀ found,
      found ∈ (resolve selections schema path).2 ↔ Counts selections schema path found) ∧
    (∀ fields path, MembersUnique fields → ∀ found,
      found ∈ (resolveBelow selections fields path).2 ↔
        CountsBelow selections (property? · fields) path found) ∧
    (∀ properties path, MembersUnique properties → ∀ found,
      found ∈ (resolveNamed selections properties path).2 ↔
        CountsBelow selections (Entries.get? · properties) path found) := by
  apply resolve.mutual_induct selections
    (fun schema path => schema.KeysUnique → ∀ found,
      found ∈ (resolve selections schema path).2 ↔ Counts selections schema path found)
    (fun fields path => MembersUnique fields → ∀ found,
      found ∈ (resolveBelow selections fields path).2 ↔
        CountsBelow selections (property? · fields) path found)
    (fun properties path => MembersUnique properties → ∀ found,
      found ∈ (resolveNamed selections properties path).2 ↔
        CountsBelow selections (Entries.get? · properties) path found)
  case case1 =>
    intro path fields below more _ ih h found
    have hchosen := membersUnique_choose selections path (keysUnique_obj_iff.1 h)
    rw [resolve_obj, List.mem_append, ih hchosen, counts_obj_iff]
  case case2 =>
    intro schema path hschema h found
    rw [resolve_of_not_obj hschema]
    exact iff_of_false List.not_mem_nil (not_counts_of_not_obj hschema path found)
  case case3 =>
    intro path h found
    rw [resolveBelow_nil]
    exact iff_of_false List.not_mem_nil (not_countsBelow_of_none (fun _ => rfl) path found)
  case case4 =>
    intro path keyword inner rest below more _ others evenMore _ ihNamed ihRest h found
    obtain ⟨hkey, hv, hrest⟩ := membersUnique_cons_iff.1 h
    rw [resolveBelow_cons_obj, List.mem_append, ihRest hrest, resolveValue]
    by_cases hproperties : keyword = "properties"
    · subst hproperties
      rw [if_pos rfl, ihNamed (keysUnique_obj_iff.1 hv), countsBelow_cons_properties hkey]
      rfl
    · rw [if_neg hproperties, countsBelow_cons_of_ne hproperties]
      exact or_iff_right List.not_mem_nil
  case case5 =>
    intro path keyword v rest hv others more _ ih h found
    obtain ⟨hkey, -, hrest⟩ := membersUnique_cons_iff.1 h
    have hvalue : ∀ inner, v ≠ .obj inner := fun inner heq => hv inner heq
    rw [resolveBelow_cons_of_not_obj hvalue, ih hrest]
    by_cases hproperties : keyword = "properties"
    · subst hproperties
      have hfields : v.fields? = none := by
        cases v with
        | obj inner => exact absurd rfl (hv inner)
        | _ => rfl
      rw [countsBelow_cons_properties hkey, hfields]
      exact (or_iff_right (not_countsBelow_of_none (fun _ => rfl) path found)).symm
    · rw [countsBelow_cons_of_ne hproperties]
  case case6 =>
    intro path h found
    rw [resolveNamed_nil]
    exact iff_of_false List.not_mem_nil (not_countsBelow_of_none (fun _ => rfl) path found)
  case case7 =>
    intro path name schema rest resolved more _ others evenMore _ ih ihRest h found
    obtain ⟨hkey, hv, hrest⟩ := membersUnique_cons_iff.1 h
    rw [resolveNamed_cons, List.mem_append, ih hv, ihRest hrest, countsBelow_named_cons_iff hkey]

/-! ### Selections that agree where a choice counts -/

/-- Two selections hold the same number at the path of each choice. -/
def Agree (selections other : Selections) (choices : List Pinned) : Prop :=
  ∀ found ∈ choices, selections.get? found.path = other.get? found.path

variable {other : Selections}

theorem agree_append_iff {first second : List Pinned} :
    Agree selections other (first ++ second) ↔
      Agree selections other first ∧ Agree selections other second :=
  List.forall_mem_append

/-- Where no choice counts, the keywords stay. -/
theorem choose_of_nil {path : String} {fields : Fields}
    (h : (choose selections path fields).2 = []) :
    choose selections path fields = (fields, []) := by
  unfold choose at h ⊢
  split
  · next hchosen =>
    rw [hchosen] at h
    cases h
  · rfl

theorem choose_congr {path : String} {fields : Fields}
    (h : Agree selections other (choose selections path fields).2)
    (h' : Agree selections other (choose other path fields).2) :
    choose selections path fields = choose other path fields := by
  by_cases heq : selections.get? path = other.get? path
  · unfold choose chosen?
    rw [heq]
  · -- A choice that counted at this path would make the two numbers agree.
    have hnil : ∀ found : List Pinned, Agree selections other found →
        (∀ choice ∈ found, choice.path = path) → found = [] := by
      intro found hagree hpath
      cases found with
      | nil => rfl
      | cons choice rest =>
        have hchoice := hagree choice List.mem_cons_self
        rw [hpath choice List.mem_cons_self] at hchoice
        exact absurd hchoice heq
    rw [choose_of_nil (hnil _ h fun _ hmem => (mem_choose_iff.1 hmem).1),
      choose_of_nil (hnil _ h' fun _ hmem => (mem_choose_iff.1 hmem).1)]

/-- Selections that agree at every choice that counts for one of them do the same. -/
theorem resolve_congr (selections other : Selections) :
    (∀ schema path, Agree selections other (resolve selections schema path).2 →
      Agree selections other (resolve other schema path).2 →
        resolve selections schema path = resolve other schema path) ∧
    (∀ fields path, Agree selections other (resolveBelow selections fields path).2 →
      Agree selections other (resolveBelow other fields path).2 →
        resolveBelow selections fields path = resolveBelow other fields path) ∧
    (∀ properties path, Agree selections other (resolveNamed selections properties path).2 →
      Agree selections other (resolveNamed other properties path).2 →
        resolveNamed selections properties path = resolveNamed other properties path) := by
  apply resolve.mutual_induct selections
    (fun schema path => Agree selections other (resolve selections schema path).2 →
      Agree selections other (resolve other schema path).2 →
        resolve selections schema path = resolve other schema path)
    (fun fields path => Agree selections other (resolveBelow selections fields path).2 →
      Agree selections other (resolveBelow other fields path).2 →
        resolveBelow selections fields path = resolveBelow other fields path)
    (fun properties path => Agree selections other (resolveNamed selections properties path).2 →
      Agree selections other (resolveNamed other properties path).2 →
        resolveNamed selections properties path = resolveNamed other properties path)
  case case1 =>
    intro path fields below more _ ih h h'
    rw [resolve_obj, agree_append_iff] at h h'
    have hchoose := choose_congr h.1 h'.1
    rw [← hchoose] at h'
    rw [resolve_obj, resolve_obj, ← hchoose, ih h.2 h'.2]
  case case2 =>
    intro schema path hschema _ _
    rw [resolve_of_not_obj hschema, resolve_of_not_obj hschema]
  case case3 =>
    intro path _ _
    rw [resolveBelow_nil, resolveBelow_nil]
  case case4 =>
    intro path keyword inner rest below more _ others evenMore _ ihNamed ihRest h h'
    rw [resolveBelow_cons_obj, agree_append_iff] at h h'
    rw [resolveBelow_cons_obj, resolveBelow_cons_obj, ihRest h.2 h'.2]
    by_cases hproperties : keyword = "properties"
    · subst hproperties
      have hnamed := ihNamed (by simpa only [resolveValue, if_true] using h.1)
        (by simpa only [resolveValue, if_true] using h'.1)
      simp only [resolveValue, if_true, hnamed]
    · simp only [resolveValue, if_neg hproperties]
  case case5 =>
    intro path keyword v rest hv others more _ ih h h'
    have hvalue : ∀ inner, v ≠ .obj inner := fun inner heq => hv inner heq
    rw [resolveBelow_cons_of_not_obj hvalue] at h h' ⊢
    rw [resolveBelow_cons_of_not_obj hvalue, ih h h']
  case case6 =>
    intro path _ _
    rw [resolveNamed_nil, resolveNamed_nil]
  case case7 =>
    intro path name schema rest resolved more _ others evenMore _ ih ihRest h h'
    rw [resolveNamed_cons, agree_append_iff] at h h'
    rw [resolveNamed_cons, resolveNamed_cons, ih h.1 h'.1, ihRest h.2 h'.2]

end Selection

namespace Pipeline

open Json Selection

variable {selections : Selections} {schema : Json}

theorem resolve_of_isEmpty (h : selections.isEmpty = true) (schema : Json) (path : String) :
    resolve selections schema path = (schema, []) := by
  have hnone : ∀ path, selections.get? path = none := by
    obtain ⟨entries, sorted⟩ := selections
    cases entries with
    | nil => exact fun _ => rfl
    | cons entry rest => cases h
  exact (resolve_of_unchosen selections).1 schema path (hnone path) fun _ _ => hnone _

/-- Without selections the pass would do nothing, so that it is left out makes no difference. -/
theorem chosenSchema_eq (selections : Selections) (schema : Json) :
    chosenSchema selections schema = (resolve selections schema "").1 := by
  unfold chosenSchema
  split
  · next h => rw [resolve_of_isEmpty h]
  · rfl

theorem pinnedCombinators_eq (selections : Selections) (schema : Json) :
    pinnedCombinators selections schema = SortedMap.ofList
      ((resolve selections schema "").2.map fun found => (found.path, found.combinator)) := by
  unfold pinnedCombinators
  split
  · next h =>
    rw [resolve_of_isEmpty h]
    rfl
  · rfl

/-- The model depends on selections only through the choices that count. -/
theorem plainModel_congr [Patterns] {prepared : Json} {data : Option Json} {other : Selections}
    (h : Agree selections other (resolve selections (situated prepared data) "").2)
    (h' : Agree selections other (resolve other (situated prepared data) "").2) :
    plainModel prepared data selections = plainModel prepared data other := by
  have hresolve := (resolve_congr selections other).1 (situated prepared data) "" h h'
  have hschema : chosenSchema selections (situated prepared data) =
      chosenSchema other (situated prepared data) := by
    rw [chosenSchema_eq, chosenSchema_eq, hresolve]
  have hpinned : pinnedCombinators selections (situated prepared data) =
      pinnedCombinators other (situated prepared data) := by
    rw [pinnedCombinators_eq, pinnedCombinators_eq, hresolve]
  rw [plainModel, plainModel, plainIndex, plainIndex, hschema, hpinned]

theorem mem_resolve_build_iff {schema : Document} {segments : List String}
    {combinator : Combinator} :
    ⟨Pointer.build segments, combinator⟩ ∈ (resolve selections schema "").2 ↔
      choiceAt selections segments schema "" = some combinator := by
  rw [(mem_resolve_iff selections).1 schema "" schema.keysUnique]
  constructor
  · rintro ⟨others, hpath, hchoice⟩
    rw [Pointer.join_empty] at hpath
    rw [Pointer.build_injective hpath]
    exact hchoice
  · intro hchoice
    exact ⟨segments, (Pointer.join_empty segments).symm, hchoice⟩

/-- The pinned combinators are those of the choices that count. -/
theorem get?_pinnedCombinators (schema : Document) (selections : Selections)
    (segments : List String) :
    (pinnedCombinators selections schema).get? (Pointer.build segments) =
      choiceAt selections segments schema "" := by
  rw [pinnedCombinators_eq, SortedMap.get?_ofList]
  have hmem : ∀ combinator,
      (Pointer.build segments, combinator) ∈ ((resolve selections schema "").2.map
        fun found => (found.path, found.combinator)).reverse ↔
          choiceAt selections segments schema "" = some combinator := by
    intro combinator
    rw [List.mem_reverse, List.mem_map, ← mem_resolve_build_iff]
    constructor
    · rintro ⟨found, hfound, heq⟩
      obtain ⟨hpath, rfl⟩ := Prod.mk.inj heq
      rw [← hpath]
      exact hfound
    · intro hfound
      exact ⟨_, hfound, rfl⟩
  cases hlookup : SortedMap.lookup (Pointer.build segments) _ with
  | some combinator => exact ((hmem combinator).1 (SortedMap.mem_of_lookup hlookup)).symm
  | none =>
    cases hchoice : choiceAt selections segments schema "" with
    | none => rfl
    | some combinator =>
      exact absurd rfl (SortedMap.lookup_eq_none_iff.1 hlookup _ ((hmem combinator).2 hchoice))

end Pipeline

/-- A schema with the chosen branches in their places. -/
def Document.chosen (selections : Selections) (schema : Document) : Document where
  value := Pipeline.chosenSchema selections schema
  keysUnique := by
    rw [Pipeline.chosenSchema_eq]
    exact (Selection.keysUnique_resolve selections).1 schema "" schema.keysUnique

end SchemaForm
