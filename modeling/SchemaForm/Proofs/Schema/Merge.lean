import SchemaForm.Proofs.Decimal.Binary64
import SchemaForm.Proofs.Json.Equality
import SchemaForm.Proofs.Schema.KeysUnique
import SchemaForm.Proofs.Schema.Match

/-!
# What stands in a merged schema

Under each keyword a merged schema holds the two values joined by the rule of the keyword. So the
keywords that matching reads can be told from those of the two sides: the types are the common ones,
the required names those of both, a bound is one of the two and the tighter one of two numbers, and
the schemas of properties are merged name by name.
-/

namespace SchemaForm.Schema

open Json

variable {a b : Fields}

/-! ### Look-up -/

/-- The value of a keyword that two sides have or have not. -/
def joined (keyword : String) (a b : Option Json) : Option Json :=
  match b with
  | none => a
  | some v => (mergeJoined (mergeRule keyword) a v).orElse fun _ => a

/-- Two schemas that are there or not, merged if both are. -/
def mergeOpt (a b : Option Json) : Option Json :=
  match b with
  | none => a
  | some v => some (a.elim v fun u => merge u v)

theorem get?_mergeKeywords (hb : (Entries.keys b).Nodup) (keyword : String) :
    Entries.get? keyword (mergeKeywords a b) =
      joined keyword (Entries.get? keyword a) (Entries.get? keyword b) := by
  induction b generalizing a with
  | nil => rw [mergeKeywords, Entries.get?_nil, joined]
  | cons entry rest ih =>
    obtain ⟨k, v⟩ := entry
    rw [Entries.keys_cons, List.nodup_cons] at hb
    rw [mergeKeywords, ih hb.2, Entries.get?_cons]
    by_cases hk : k = keyword
    · subst hk
      have hrest : Entries.get? k rest = none := Entries.get?_eq_none_iff.2 hb.1
      rw [if_pos rfl, hrest, joined, joined]
      cases hjoined : mergeJoined (mergeRule k) (Entries.get? k a) v with
      | none => rfl
      | some w =>
        dsimp only
        rw [Entries.get?_insert, if_pos rfl]
        rfl
    · rw [if_neg hk]
      cases mergeJoined (mergeRule k) (Entries.get? k a) v with
      | none => rfl
      | some w =>
        dsimp only
        rw [Entries.get?_insert, if_neg hk]

theorem get?_mergeNamed {acc named : Fields} (h : (Entries.keys named).Nodup) (name : String) :
    Entries.get? name (mergeNamed acc named) =
      mergeOpt (Entries.get? name acc) (Entries.get? name named) := by
  induction named generalizing acc with
  | nil => rw [mergeNamed, Entries.get?_nil, mergeOpt]
  | cons entry rest ih =>
    obtain ⟨k, v⟩ := entry
    rw [Entries.keys_cons, List.nodup_cons] at h
    rw [mergeNamed, ih h.2, Entries.get?_cons, Entries.get?_insert]
    by_cases hk : k = name
    · subst hk
      have hrest : Entries.get? k rest = none := Entries.get?_eq_none_iff.2 h.1
      rw [if_pos rfl, if_pos rfl, hrest]
      rfl
    · rw [if_neg hk, if_neg hk]

/-- A rule for values that hold no schemas to merge. -/
theorem mergeJoined_of_mergeValue {rule : MergeRule} (hnamed : rule ≠ .schemasByName)
    (hschema : rule ≠ .schema) (u : Option Json) (v : Json) :
    mergeJoined rule u v = mergeValue rule u v := by
  cases v with
  | obj entries => cases rule <;> simp_all [mergeJoined]
  | _ => simp [mergeJoined]

/-- A keyword whose values hold no schemas to merge. -/
theorem joined_of_mergeValue {keyword : String} (hnamed : mergeRule keyword ≠ .schemasByName)
    (hschema : mergeRule keyword ≠ .schema) (u : Option Json) (v : Json) :
    joined keyword u (some v) = (mergeValue (mergeRule keyword) u v).orElse fun _ => u := by
  rw [joined, mergeJoined_of_mergeValue hnamed hschema]

/-- The later side has the last word on a keyword without a rule of its own. -/
theorem joined_of_last {keyword : String} (h : mergeRule keyword = .last) (u v : Option Json) :
    joined keyword u v = v.orElse fun _ => u := by
  cases v with
  | none => rfl
  | some v =>
    rw [joined_of_mergeValue (by rw [h]; decide) (by rw [h]; decide), h]
    rfl

/-! ### Two values that are there or not -/

/-- What holds of a merged value, and thus of both its parts, holds of two sides that are merged
where both are there. -/
theorem forall_of_merge {α : Type} {f : α → α → α} {P : α → Prop}
    (hparts : ∀ x y, P (f x y) → P x ∧ P y) {x y : Option α}
    (h : ∀ z, Option.merge f x y = some z → P z) :
    (∀ z, x = some z → P z) ∧ ∀ z, y = some z → P z := by
  cases x with
  | none =>
    constructor
    · intro z hz
      cases hz
    · rintro z rfl
      exact h z rfl
  | some x =>
    cases y with
    | none =>
      constructor
      · intro z hz
        exact h z hz
      · intro z hz
        cases hz
    | some y =>
      obtain ⟨hx, hy⟩ := hparts x y (h _ rfl)
      constructor
      · intro z hz
        rwa [← Option.some.inj hz]
      · intro z hz
        rwa [← Option.some.inj hz]

/-- What holds of two sides, and of both merged, holds of what is merged where both are there. -/
theorem forall_merge {α : Type} {f : α → α → α} {P : α → Prop} {x y : Option α}
    (hx : ∀ z, x = some z → P z) (hy : ∀ z, y = some z → P z)
    (hboth : ∀ u v, x = some u → y = some v → P (f u v)) :
    ∀ z, Option.merge f x y = some z → P z := by
  intro z hz
  cases x with
  | none =>
    cases y with
    | none => cases hz
    | some v => exact hy z hz
  | some u =>
    cases y with
    | none => exact hx z hz
    | some v =>
      rw [← Option.some.inj hz]
      exact hboth u v rfl rfl

/-! ### Types -/

/-- The value of a `type` keyword as it should be: a text or a list of texts. -/
def NamesTypes (v : Json) : Prop := ∃ names : List String, asList v = names.map .str

/-- The types that two sides have in common; a side without types allows all. -/
def commonTypes : Option (List JsonType) → Option (List JsonType) → Option (List JsonType) :=
  Option.merge fun types others => types.filter others.contains

theorem typesOf?_eq {v : Json} {names : List String} (h : asList v = names.map .str) :
    typesOf? v = some (names.filterMap JsonType.ofName?) := by
  have hitems : (names.map Json.str).filterMap (fun name => name.str?.bind JsonType.ofName?) =
      names.filterMap JsonType.ofName? := by
    rw [List.filterMap_map]
    rfl
  cases v with
  | arr items =>
    obtain rfl : items = names.map .str := h
    exact congrArg some hitems
  | str name =>
    have hnames : [name] = names := by
      cases names with
      | nil => cases h
      | cons head rest =>
        cases rest with
        | nil =>
          cases h
          rfl
        | cons second rest => cases h
    rw [← hnames]
    cases hname : JsonType.ofName? name <;> simp [typesOf?, hname]
  | _ =>
    cases names with
    | nil => cases h
    | cons head rest => cases h

theorem asList_ofList_map_str (names : List String) :
    asList (ofList (names.map .str)) = names.map .str := by
  cases names with
  | nil => rfl
  | cons head rest =>
    cases rest with
    | nil => rfl
    | cons second rest => rfl

theorem asList_mergeTypes {u v : Json} {names others : List String}
    (hu : asList u = names.map .str) (hv : asList v = others.map .str) :
    asList (mergeTypes (some u) v) = (names.filter others.contains).map .str := by
  have hfilter : (names.map Json.str).filter (fun type => type.memberOf (others.map .str)) =
      (names.filter others.contains).map .str := by
    rw [List.filter_map]
    congr 1
    apply List.filter_congr
    intro name _
    rw [Function.comp_apply, Bool.eq_iff_iff, memberOf_str_iff]
    simp
  rw [mergeTypes, hu, hv, hfilter, asList_ofList_map_str]

theorem namesTypes_mergeTypes {u : Option Json} {v : Json} (hu : ∀ w ∈ u, NamesTypes w)
    (hv : NamesTypes v) : NamesTypes (mergeTypes u v) := by
  cases u with
  | none => exact hv
  | some w =>
    obtain ⟨names, hnames⟩ := hu w rfl
    obtain ⟨others, hothers⟩ := hv
    exact ⟨_, asList_mergeTypes hnames hothers⟩

/-- A name stands for a type exactly if it is its name, so the common names stand for the common
types. -/
theorem filterMap_filter_contains (names others : List String) :
    (names.filter others.contains).filterMap JsonType.ofName? =
      (names.filterMap JsonType.ofName?).filter
        (others.filterMap JsonType.ofName?).contains := by
  induction names with
  | nil => rfl
  | cons name rest ih =>
    cases htype : JsonType.ofName? name with
    | none =>
      rw [List.filterMap_cons_none htype, ← ih, List.filter_cons]
      split
      · rw [List.filterMap_cons_none htype]
      · rfl
    | some type =>
      have hname : name = type.name := JsonType.ofName?_eq_some_iff.1 htype
      have hcontains : others.contains name =
          (others.filterMap JsonType.ofName?).contains type := by
        rw [Bool.eq_iff_iff, List.contains_iff_mem, List.contains_iff_mem, List.mem_filterMap]
        constructor
        · intro hmem
          exact ⟨name, hmem, htype⟩
        · rintro ⟨other, hmem, hother⟩
          rwa [hname, ← JsonType.ofName?_eq_some_iff.1 hother]
      rw [List.filterMap_cons_some htype, List.filter_cons, List.filter_cons, hcontains]
      split
      · rw [List.filterMap_cons_some htype, ih]
      · exact ih

/-- A merged schema allows the types that both sides allow. -/
theorem types?_mergeKeywords (hb : (Entries.keys b).Nodup)
    (htypesA : ∀ v, Entries.get? "type" a = some v → NamesTypes v)
    (htypesB : ∀ v, Entries.get? "type" b = some v → NamesTypes v) :
    types? (.obj (mergeKeywords a b)) = commonTypes (types? (.obj a)) (types? (.obj b)) := by
  show (Entries.get? "type" (mergeKeywords a b)).bind typesOf? =
    commonTypes ((Entries.get? "type" a).bind typesOf?) ((Entries.get? "type" b).bind typesOf?)
  rw [get?_mergeKeywords hb]
  cases hv : Entries.get? "type" b with
  | none =>
    rw [joined]
    cases hu : Entries.get? "type" a with
    | none => rfl
    | some u =>
      obtain ⟨names, hnames⟩ := htypesA u hu
      rw [Option.bind_some, typesOf?_eq hnames]
      rfl
  | some v =>
    obtain ⟨others, hothers⟩ := htypesB v hv
    rw [joined_of_mergeValue (by decide) (by decide)]
    show (some (mergeTypes _ v)).bind typesOf? = _
    cases hu : Entries.get? "type" a with
    | none =>
      show typesOf? v = commonTypes none (typesOf? v)
      rw [typesOf?_eq hothers]
      rfl
    | some u =>
      obtain ⟨names, hnames⟩ := htypesA u hu
      rw [Option.bind_some, Option.bind_some, Option.bind_some,
        typesOf?_eq (asList_mergeTypes hnames hothers), typesOf?_eq hnames, typesOf?_eq hothers,
        filterMap_filter_contains]
      rfl

/-! ### Required names -/

theorem mem_addNames_iff {name : String} {names acc : List Json} :
    Json.str name ∈ names.foldl
      (fun names name => if name.memberOf names then names else names ++ [name]) acc ↔
      Json.str name ∈ acc ∨ Json.str name ∈ names := by
  induction names generalizing acc with
  | nil => simp
  | cons head rest ih =>
    rw [List.foldl_cons, ih, List.mem_cons]
    by_cases hhead : head.memberOf acc = true
    · rw [if_pos hhead]
      constructor
      · rintro (h | h)
        · exact Or.inl h
        · exact Or.inr (Or.inr h)
      · rintro (h | rfl | h)
        · exact Or.inl h
        · exact Or.inl (memberOf_str_iff.1 hhead)
        · exact Or.inr h
    · rw [if_neg hhead, List.mem_append, List.mem_singleton, or_assoc]

/-- A merged schema requires what either side requires. -/
theorem mem_requiredItems_mergeKeywords_iff (hb : (Entries.keys b).Nodup) {name : String} :
    .str name ∈ requiredItems (mergeKeywords a b) ↔
      .str name ∈ requiredItems a ∨ .str name ∈ requiredItems b := by
  have hread : ∀ keywords : Fields, requiredItems keywords =
      ((Entries.get? "required" keywords).bind items?).getD [] := fun _ => rfl
  rw [hread, hread, hread, get?_mergeKeywords hb]
  cases Entries.get? "required" b with
  | none => simp [joined]
  | some v =>
    rw [joined_of_mergeValue (by decide) (by decide)]
    exact mem_addNames_iff

/-! ### Bounds -/

theorem mergeBound_eq_or (tighter : Binary64 → Binary64 → Bool) (u : Option Json) (v : Json) :
    some (mergeBound tighter u v) = u ∨ mergeBound tighter u v = v := by
  unfold mergeBound
  split
  · split
    · exact Or.inl rfl
    · exact Or.inr rfl
  · exact Or.inr rfl

/-- What holds of both values of a bound holds of the joined one, which is one of the two. -/
theorem forall_joined_of_bound {keyword : String} {tighter : Binary64 → Binary64 → Bool}
    (hrule : ∀ u v, joined keyword u (some v) = some (mergeBound tighter u v)) {P : Json → Prop}
    {u v : Option Json} (hu : ∀ w, u = some w → P w) (hv : ∀ w, v = some w → P w) :
    ∀ w, joined keyword u v = some w → P w := by
  intro w h
  cases v with
  | none => exact hu w h
  | some v =>
    rw [hrule] at h
    rcases mergeBound_eq_or tighter u v with hside | hside
    · exact hu w (hside.symm.trans h)
    · exact hv w (hside ▸ h)

/-- What is read from a joined bound is read from one of the two. -/
theorem forall_read_mergeKeywords (hb : (Entries.keys b).Nodup) {keyword : String}
    {tighter : Binary64 → Binary64 → Bool}
    (hrule : ∀ u v, joined keyword u (some v) = some (mergeBound tighter u v)) {α : Type}
    {read : Json → Option α} {P : α → Prop}
    (hpa : ∀ x, (Entries.get? keyword a).bind read = some x → P x)
    (hpb : ∀ x, (Entries.get? keyword b).bind read = some x → P x) :
    ∀ x, (Entries.get? keyword (mergeKeywords a b)).bind read = some x → P x := by
  intro x hx
  obtain ⟨w, hw, hread⟩ := Option.bind_eq_some_iff.1 hx
  rw [get?_mergeKeywords hb] at hw
  refine forall_joined_of_bound hrule (P := fun w => ∀ x, read w = some x → P x) ?_ ?_ w hw x hread
  · rintro u hu y hy
    exact hpa y (Option.bind_eq_some_iff.2 ⟨u, hu, hy⟩)
  · rintro v hv y hy
    exact hpb y (Option.bind_eq_some_iff.2 ⟨v, hv, hy⟩)

/-- Of two numbers the tighter one is kept. -/
theorem mergeBound_of_numbers {tighter : Binary64 → Binary64 → Bool} {u v : Json} {x y : Binary64}
    (hx : u.double? = some x) (hy : v.double? = some y) :
    mergeBound tighter (some u) v = if tighter x y then u else v := by
  simp only [mergeBound, Option.bind_some, hx, hy]

/-- The tighter one of two bounds; a side without a bound sets none. -/
def tightest (tighter : Binary64 → Binary64 → Bool) :
    Option Binary64 → Option Binary64 → Option Binary64 :=
  Option.merge fun x y => if tighter x y then x else y

/-- A merged schema has the tighter bound, where the bounds are numbers. -/
theorem bound?_mergeKeywords (hb : (Entries.keys b).Nodup) {keyword : String}
    {tighter : Binary64 → Binary64 → Bool}
    (hrule : ∀ u v, joined keyword u (some v) = some (mergeBound tighter u v))
    (hnumbersA : ∀ v, Entries.get? keyword a = some v → ∃ n, v = .num n)
    (hnumbersB : ∀ v, Entries.get? keyword b = some v → ∃ n, v = .num n) :
    bound? keyword (mergeKeywords a b) =
      tightest tighter (bound? keyword a) (bound? keyword b) := by
  unfold bound?
  rw [get?_mergeKeywords hb]
  cases hv : Entries.get? keyword b with
  | none =>
    rw [joined]
    cases hu : Entries.get? keyword a with
    | none => rfl
    | some u =>
      obtain ⟨m, rfl⟩ := hnumbersA u hu
      rfl
  | some v =>
    obtain ⟨n, rfl⟩ := hnumbersB v hv
    rw [hrule]
    cases hu : Entries.get? keyword a with
    | none => rfl
    | some u =>
      obtain ⟨m, rfl⟩ := hnumbersA u hu
      rw [mergeBound_of_numbers rfl rfl]
      show (if tighter m.toBinary64 n.toBinary64 = true then Json.num m else .num n).double? =
        some (if tighter m.toBinary64 n.toBinary64 then m.toBinary64 else n.toBinary64)
      split <;> rfl

/-- The greater one of two counts; a side without a count sets none. -/
def longest : Option Nat → Option Nat → Option Nat := Option.merge max

/-- A merged schema has the greater least length, where the lengths are counts that doubles tell
apart. -/
theorem minLength_mergeKeywords (hb : (Entries.keys b).Nodup)
    (hcountsA : ∀ v, Entries.get? "minLength" a = some v → ∃ n : Nat, n < Nat.pow 2 53 ∧ v = int n)
    (hcountsB : ∀ v, Entries.get? "minLength" b = some v →
      ∃ n : Nat, n < Nat.pow 2 53 ∧ v = int n) :
    (Entries.get? "minLength" (mergeKeywords a b)).bind nat? =
      longest ((Entries.get? "minLength" a).bind nat?)
        ((Entries.get? "minLength" b).bind nat?) := by
  have hnat : ∀ n : Nat, (int n).nat? = some n := fun _ => rfl
  rw [get?_mergeKeywords hb]
  cases hv : Entries.get? "minLength" b with
  | none =>
    rw [joined]
    cases hu : Entries.get? "minLength" a with
    | none => rfl
    | some u =>
      obtain ⟨m, -, rfl⟩ := hcountsA u hu
      rw [Option.bind_some, hnat]
      rfl
  | some v =>
    obtain ⟨n, hn, rfl⟩ := hcountsB v hv
    rw [joined_of_mergeValue (by decide) (by decide)]
    show (mergeBound (fun x y => y.le x) _ (int n)).nat? = longest _ (int n).nat?
    cases hu : Entries.get? "minLength" a with
    | none => rfl
    | some u =>
      obtain ⟨m, hm, rfl⟩ := hcountsA u hu
      have hx : (int m).double? = some (Binary64.ofInt m) := rfl
      have hy : (int n).double? = some (Binary64.ofInt n) := rfl
      rw [mergeBound_of_numbers hx hy, Option.bind_some, hnat, hnat]
      by_cases hle : n ≤ m
      · rw [if_pos ((Binary64.le_ofInt_natCast_iff hn hm).2 hle), hnat]
        exact congrArg some (Nat.max_eq_left hle).symm
      · rw [if_neg fun h => hle ((Binary64.le_ofInt_natCast_iff hn hm).1 h), hnat]
        exact congrArg some (Nat.max_eq_right (Nat.le_of_not_le hle)).symm

/-! ### Properties -/

theorem membersUnique_properties (h : MembersUnique a) : MembersUnique (properties a) :=
  membersUnique_membersOf fun _ hv => h.get? hv

/-- Where both sides describe properties by an object, they are merged name by name. -/
theorem get?_properties_mergeKeywords (hb : MembersUnique b)
    (hobj : ∀ v, Entries.get? "properties" b = some v → v.isObj = true) (name : String) :
    Entries.get? name (properties (mergeKeywords a b)) =
      mergeOpt (Entries.get? name (properties a)) (Entries.get? name (properties b)) := by
  unfold properties
  rw [get?_mergeKeywords hb.nodup]
  cases hv : Entries.get? "properties" b with
  | none => rfl
  | some v =>
    cases v with
    | obj named =>
      have hnamed : (Entries.keys named).Nodup := (keysUnique_obj_iff.1 (hb.get? hv)).nodup
      have hjoined : joined "properties" (Entries.get? "properties" a) (some (.obj named)) =
          some (.obj (mergeNamed (membersOf (Entries.get? "properties" a)) named)) := by
        rw [joined, show mergeRule "properties" = .schemasByName from rfl, mergeJoined]
        rfl
      rw [hjoined]
      exact get?_mergeNamed hnamed name
    | _ => cases hobj _ hv

/-- Properties that the later side describes by anything else are lost. -/
theorem properties_mergeKeywords_of_not_obj (hb : (Entries.keys b).Nodup) {v : Json}
    (hv : Entries.get? "properties" b = some v) (hobj : v.isObj = false) :
    properties (mergeKeywords a b) = [] := by
  unfold properties
  rw [get?_mergeKeywords hb, hv, joined, show mergeRule "properties" = .schemasByName from rfl]
  cases v with
  | obj named => cases hobj
  | _ =>
    rw [mergeJoined]
    · rfl
    · intro entries h
      cases h

/-- What holds of the schemas of both sides and of two of them merged holds of every schema of a
property of the merged keywords. -/
theorem forall_properties_mergeKeywords (ha : MembersUnique a) (hb : MembersUnique b)
    {P : String → Json → Prop} (hpa : ∀ entry ∈ properties a, P entry.1 entry.2)
    (hpb : ∀ entry ∈ properties b, P entry.1 entry.2)
    (hmerge : ∀ name u v, Entries.get? name (properties a) = some u →
      Entries.get? name (properties b) = some v → P name (merge u v)) :
    ∀ entry ∈ properties (mergeKeywords a b), P entry.1 entry.2 := by
  intro entry hentry
  have hobj : ∀ v, Entries.get? "properties" b = some v → v.isObj = true := by
    intro v hv
    cases hv' : v.isObj with
    | true => rfl
    | false =>
      rw [properties_mergeKeywords_of_not_obj hb.nodup hv hv'] at hentry
      cases hentry
  have hmerged := membersUnique_properties (keysUnique_merge.2.1 a b ha hb.values)
  have hfound := Entries.get?_of_mem hmerged.nodup hentry
  rw [get?_properties_mergeKeywords hb hobj] at hfound
  cases hv : Entries.get? entry.1 (properties b) with
  | none =>
    rw [hv] at hfound
    exact hpa _ (Entries.mem_of_get? hfound)
  | some v =>
    cases hu : Entries.get? entry.1 (properties a) with
    | none =>
      rw [hu, hv] at hfound
      rw [← Option.some.inj hfound]
      exact hpb _ (Entries.mem_of_get? hv)
    | some u =>
      rw [hu, hv, mergeOpt, Option.elim_some] at hfound
      rw [← Option.some.inj hfound]
      exact hmerge _ u v hu hv

end SchemaForm.Schema
