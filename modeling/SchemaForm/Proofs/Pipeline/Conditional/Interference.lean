import SchemaForm.Proofs.Pipeline.Conditional
import SchemaForm.Proofs.Pipeline.Leftover

/-!
# What a resolved schema hangs on

Of the data a pass over the conditionals reads what the conditions read, and whether there is a list
where items are described. `PartsAt` follows two passes over one schema, with different data, to the
readings that come out differently. Where there is no such reading both passes come to the same.
What a condition reads through named properties, or of the field itself by `const` and `enum`, is
noted as a dependency; what it reads through `required`, or below a named member through the other
keywords, is not.

Main statement: if two objects that differ in one member give different schemas, then the
dependencies found for the first have that member or something below it as a source, or every
reading at which the two passes part is one that is not noted there.
-/

namespace SchemaForm

open Json Schema

namespace Conditional

/-! ### What a condition reads -/

/-- The members that a condition looks into. -/
def named (condition : Json) : List String :=
  Entries.keys ((condition.getFields? "properties").getD [])

/-- The condition asks for the value of the field itself. -/
def AsksForValue (condition : Json) : Prop :=
  (condition.get? "const").isSome = true ∨ (condition.get? "enum").isSome = true

theorem mem_dependencies_iff {condition : Json} {path : String} {found : Dependency} :
    found ∈ dependencies condition path ↔
      (∃ name ∈ named condition, found = ⟨Pointer.append path name, path⟩) ∨
        AsksForValue condition ∧ found = ⟨path, path⟩ := by
  unfold dependencies named Entries.keys AsksForValue
  rw [List.mem_append, ← Bool.or_eq_true]
  refine or_congr ?_ ?_
  · simp only [List.mem_map]
    constructor
    · rintro ⟨entry, hentry, rfl⟩
      exact ⟨entry.1, ⟨entry, hentry, rfl⟩, rfl⟩
    · rintro ⟨_, ⟨entry, hentry, rfl⟩, rfl⟩
      exact ⟨entry, hentry, rfl⟩
  · split
    · next h => simp [h]
    · next h => simp [h]

theorem admits_obj (type : JsonType) (a b : Fields) :
    type.admits (.obj a) = type.admits (.obj b) := by
  cases type <;> rfl

/-- Of an object a condition that does not ask for its value reads the members that it looks into
or requires. -/
theorem accepts_eq_of_members [Patterns] {condition : Json} {a b : Fields}
    (hvalue : ¬ AsksForValue condition)
    (hnamed : ∀ name ∈ named condition, Entries.get? name a = Entries.get? name b)
    (hrequired : ∀ name, Requires condition name →
      Entries.contains name a = Entries.contains name b) :
    accepts condition (some (.obj a)) = accepts condition (some (.obj b)) := by
  cases condition with
  | obj keywords =>
    obtain ⟨hconst, henum⟩ := not_or.1 hvalue
    have hconst : Entries.get? "const" keywords = none := Option.not_isSome_iff_eq_none.1 hconst
    have henum : (Json.obj keywords).getItems? "enum" = none := by
      rw [getItems?, Option.not_isSome_iff_eq_none.1 henum]
      rfl
    have htypes : typeHolds (.obj keywords) (some (.obj a)) =
        typeHolds (.obj keywords) (some (.obj b)) := by
      unfold typeHolds
      simp only [Option.any_some, fun type => admits_obj type a b]
    have hproperties : propertiesHold patternHolds keywords a =
        propertiesHold patternHolds keywords b := by
      rw [Bool.eq_iff_iff, propertiesHold_iff, propertiesHold_iff]
      refine forall₂_congr fun entry hentry => ?_
      rw [hnamed entry.1 (List.mem_map.2 ⟨entry, hentry, rfl⟩)]
    have hnames : requiredHolds (.obj keywords) a = requiredHolds (.obj keywords) b := by
      rw [Bool.eq_iff_iff, requiredHolds_iff, requiredHolds_iff]
      exact forall₂_congr fun name hname => by rw [hrequired name hname]
    rw [accepts_obj, accepts_obj, hconst, henum]
    dsimp only
    rw [htypes, membersHold, membersHold, hproperties, hnames]
    rfl
  | bool value => rw [accepts, accepts, acceptsBy, acceptsBy]
  | _ => simp [accepts, acceptsBy]

/-! ### Where two passes part -/

/-- What a pass reads of the data at one place. -/
inductive Reading where
  /-- Whether the data fit a condition. -/
  | fits (condition : Json)
  /-- Whether the data are a list, which decides on the items. -/
  | isList

namespace Reading

/-- What comes out of a reading. -/
def outcome [Patterns] : Reading → Option Json → Bool
  | fits condition, data => accepts condition data
  | isList, data => data.any isArr

/-- What is noted of a reading at a path. -/
def dependencies : Reading → String → List Dependency
  | fits condition, path => Conditional.dependencies condition path
  | isList, _ => []

end Reading

/-- Two passes over a schema, each for its data, take the same way along property names to a
reading, and the reading comes out differently. -/
inductive PartsAt [Patterns] : Json → Option Json → Option Json → List String → Reading → Prop where
  | condition {fields : Fields} {condition : Json} {data other : Option Json}
      (hif : Entries.get? "if" fields = some condition)
      (h : accepts condition data ≠ accepts condition other) :
      PartsAt (.obj fields) data other [] (.fits condition)
  | branch {fields : Fields} {condition branch : Json} {data other : Option Json}
      {segments : List String} {reading : Reading}
      (hif : Entries.get? "if" fields = some condition)
      (hsame : accepts condition data = accepts condition other)
      (hbranch : Entries.get? (branchKeyword condition data) fields = some branch)
      (h : PartsAt (.obj (absorb (Entries.eraseAll keywords fields) branch)) data other segments
        reading) :
      PartsAt (.obj fields) data other segments reading
  | noBranch {fields : Fields} {condition : Json} {data other : Option Json}
      {segments : List String} {reading : Reading}
      (hif : Entries.get? "if" fields = some condition)
      (hsame : accepts condition data = accepts condition other)
      (hbranch : Entries.get? (branchKeyword condition data) fields = none)
      (h : PartsAt (.obj (Entries.eraseAll keywords fields)) data other segments reading) :
      PartsAt (.obj fields) data other segments reading
  | property {fields properties : Fields} {name : String} {schema : Json}
      {data other : Option Json} {segments : List String} {reading : Reading}
      (hif : Entries.get? "if" fields = none)
      (hproperties : ("properties", .obj properties) ∈ fields)
      (hname : (name, schema) ∈ properties)
      (h : PartsAt schema (data.bind (get? name)) (other.bind (get? name)) segments reading) :
      PartsAt (.obj fields) data other (name :: segments) reading
  | items {fields inner : Fields} {data other : Option Json}
      (hif : Entries.get? "if" fields = none) (hitems : ("items", .obj inner) ∈ fields)
      (h : data.any isArr ≠ other.any isArr) :
      PartsAt (.obj fields) data other [] .isList

variable {schema : Json} {data other : Option Json} {segments : List String} {reading : Reading}

/-- The reading comes out differently for the values at the end of the way. -/
theorem PartsAt.outcome_ne [Patterns] (h : PartsAt schema data other segments reading) :
    reading.outcome (memberAt? segments data) ≠ reading.outcome (memberAt? segments other) := by
  induction h with
  | condition hif h => exact h
  | branch hif hsame hbranch h ih => exact ih
  | noBranch hif hsame hbranch h ih => exact ih
  | property hif hproperties hname h ih => exact ih
  | items hif hitems h => exact h

theorem mem_resolveNamed [Patterns] {properties : Fields} {name : String} {found : Dependency}
    {path : String} (hname : (name, schema) ∈ properties)
    (h : found ∈ (resolve schema (data.bind (get? name)) (Pointer.append path name)).2) :
    found ∈ (resolveNamed properties data path).2 := by
  induction properties with
  | nil => cases hname
  | cons entry rest ih =>
    rw [resolveNamed_cons, List.mem_append]
    rcases List.mem_cons.1 hname with rfl | hname
    · exact .inl h
    · exact .inr (ih hname)

theorem mem_resolveBelow [Patterns] {fields properties : Fields} {found : Dependency}
    {path : String} (hproperties : ("properties", .obj properties) ∈ fields)
    (h : found ∈ (resolveNamed properties data path).2) :
    found ∈ (resolveBelow fields data path).2 := by
  induction fields with
  | nil => cases hproperties
  | cons entry rest ih =>
    obtain ⟨keyword, v⟩ := entry
    rcases List.mem_cons.1 hproperties with heq | hproperties
    · cases heq
      rw [resolveBelow_cons_obj, List.mem_append, resolveValue, if_pos rfl]
      exact .inl h
    · have hrest := ih hproperties
      cases v with
      | obj inner =>
        rw [resolveBelow_cons_obj, List.mem_append]
        exact .inr hrest
      | _ =>
        rw [resolveBelow_cons_of_not_obj (by simp)]
        exact hrest

/-- What the first pass notes of the reading at which it parts from the other is among what it
finds. -/
theorem PartsAt.mem_resolve [Patterns] (h : PartsAt schema data other segments reading)
    {path : String}
    {found : Dependency} (hfound : found ∈ reading.dependencies (Pointer.join path segments)) :
    found ∈ (resolve schema data path).2 := by
  induction h generalizing path with
  | @condition fields condition data other hif h =>
    rw [Pointer.join_nil] at hfound
    cases hbranch : Entries.get? (branchKeyword condition data) fields with
    | none =>
      rw [resolve_of_branch_none hif hbranch]
      exact List.mem_append_left _ hfound
    | some branch =>
      rw [resolve_of_branch hif hbranch]
      exact List.mem_append_left _ hfound
  | branch hif hsame hbranch h ih =>
    rw [resolve_of_branch hif hbranch]
    exact List.mem_append_right _ (ih hfound)
  | noBranch hif hsame hbranch h ih =>
    have hrest := ih hfound
    rw [resolve_of_if_none (get?_if_eraseAll _)] at hrest
    rw [resolve_of_branch_none hif hbranch]
    exact List.mem_append_right _ hrest
  | property hif hproperties hname h ih =>
    rw [Pointer.join_cons] at hfound
    rw [resolve_of_if_none hif]
    exact mem_resolveBelow hproperties (mem_resolveNamed hname (ih hfound))
  | items hif hitems h => cases hfound

/-! ### Passes that do not part -/

/-- Two passes part at no reading. -/
def Agree [Patterns] (schema : Json) (data other : Option Json) : Prop :=
  ∀ segments reading, ¬ PartsAt schema data other segments reading

/-- What the data decide below the keywords of a schema is the same for both. -/
structure AgreeBelow [Patterns] (fields : Fields) (data other : Option Json) : Prop where
  properties : ∀ properties, ("properties", .obj properties) ∈ fields →
    ∀ entry ∈ properties, Agree entry.2 (data.bind (get? entry.1)) (other.bind (get? entry.1))
  items : ∀ inner, ("items", .obj inner) ∈ fields → data.any isArr = other.any isArr

theorem Agree.below [Patterns] {fields : Fields} (h : Agree (.obj fields) data other)
    (hif : Entries.get? "if" fields = none) : AgreeBelow fields data other where
  properties _ hproperties _ hentry segments reading hparts :=
    h (_ :: segments) reading (.property hif hproperties hentry hparts)
  items _ hitems := by_contra fun hne => h [] .isList (.items hif hitems hne)

theorem Agree.accepts_eq [Patterns] {fields : Fields} {condition : Json}
    (h : Agree (.obj fields) data other) (hif : Entries.get? "if" fields = some condition) :
    accepts condition data = accepts condition other :=
  by_contra fun hne => h [] (.fits condition) (.condition hif hne)

theorem AgreeBelow.tail [Patterns] {entry : String × Json} {rest : Fields}
    (h : AgreeBelow (entry :: rest) data other) : AgreeBelow rest data other where
  properties properties hproperties := h.properties properties (List.mem_cons_of_mem _ hproperties)
  items inner hitems := h.items inner (List.mem_cons_of_mem _ hitems)

/-- Passes that do not part come to the same schema and the same dependencies. -/
theorem resolve_eq_of_agree [Patterns] :
    (∀ schema data path, ∀ other, Agree schema data other →
      resolve schema data path = resolve schema other path) ∧
    (∀ fields data path, ∀ other, AgreeBelow fields data other →
      resolveBelow fields data path = resolveBelow fields other path) ∧
    (∀ properties data path, ∀ other,
      (∀ entry ∈ properties, Agree entry.2 (data.bind (get? entry.1)) (other.bind (get? entry.1))) →
      resolveNamed properties data path = resolveNamed properties other path) := by
  apply resolve.mutual_induct
    (fun schema data path => ∀ other, Agree schema data other →
      resolve schema data path = resolve schema other path)
    (fun fields data path => ∀ other, AgreeBelow fields data other →
      resolveBelow fields data path = resolveBelow fields other path)
    (fun properties data path => ∀ other,
      (∀ entry ∈ properties, Agree entry.2 (data.bind (get? entry.1)) (other.bind (get? entry.1))) →
      resolveNamed properties data path = resolveNamed properties other path)
  case case1 =>
    intro data path fields hif below more _ ih other h
    rw [resolve_of_if_none hif, resolve_of_if_none hif, ih other (h.below hif)]
  case case2 =>
    intro data path fields condition hif rest hbranch below more _ ih other h
    have hsame := h.accepts_eq hif
    have hbranch' : Entries.get? (branchKeyword condition other) fields = none := by
      rwa [branchKeyword, ← hsame]
    have hrest : Agree (.obj rest) data other := fun segments reading hparts =>
      h segments reading (.noBranch hif hsame hbranch hparts)
    rw [resolve_of_branch_none hif hbranch, resolve_of_branch_none hif hbranch',
      ih other (hrest.below (get?_if_eraseAll fields))]
  case case3 =>
    intro data path fields condition hif rest branch hbranch resolved more _ ih other h
    have hsame := h.accepts_eq hif
    have hbranch' : Entries.get? (branchKeyword condition other) fields = some branch := by
      rwa [branchKeyword, ← hsame]
    have hmerged := ih other fun segments reading hparts =>
      h segments reading (.branch hif hsame hbranch hparts)
    rw [resolve_of_branch hif hbranch, resolve_of_branch hif hbranch', hmerged]
  case case4 =>
    intro schema data path hschema other _
    rw [resolve_of_not_obj hschema, resolve_of_not_obj hschema]
  case case5 =>
    intro data path other _
    rw [resolveBelow_nil, resolveBelow_nil]
  case case6 =>
    intro data path keyword inner rest value more _ below others _ ihNamed ihItems ihRest other h
    have hvalue : resolveValue keyword inner data path = resolveValue keyword inner other path := by
      unfold resolveValue
      by_cases hproperties : keyword = "properties"
      · subst hproperties
        rw [if_pos rfl, if_pos rfl, ihNamed other (h.properties inner List.mem_cons_self)]
      · rw [if_neg hproperties, if_neg hproperties]
        by_cases hitems : keyword = "items"
        · subst hitems
          rw [h.items inner List.mem_cons_self]
        · rw [if_neg fun h => hitems h.1, if_neg fun h => hitems h.1]
    rw [resolveBelow_cons_obj, resolveBelow_cons_obj, hvalue, ihRest other h.tail]
  case case7 =>
    intro data path keyword v rest hv below others _ ih other h
    rw [resolveBelow_cons_of_not_obj (fun inner h => hv inner h),
      resolveBelow_cons_of_not_obj (fun inner h => hv inner h), ih other h.tail]
  case case8 =>
    intro data path other _
    rw [resolveNamed_nil, resolveNamed_nil]
  case case9 =>
    intro data path name schema rest resolved more _ below others _ ih ihRest other h
    rw [resolveNamed_cons, resolveNamed_cons, ih _ (h _ List.mem_cons_self),
      ihRest other fun entry hentry => h entry (List.mem_cons_of_mem _ hentry)]

theorem exists_partsAt [Patterns] {path : String}
    (h : resolve schema data path ≠ resolve schema other path) :
    ∃ segments reading, PartsAt schema data other segments reading := by
  by_contra hnone
  simp only [not_exists] at hnone
  exact h (resolve_eq_of_agree.1 schema data path other hnone)

/-! ### Objects that differ in one member -/

/-- Two objects have the same members but for one name. -/
def SameBut (name : String) (a b : Fields) : Prop :=
  ∀ key, key ≠ name → Entries.get? key a = Entries.get? key b

/-- A reading of two objects that differ in one member, or of what is below that member, of which
nothing is noted at the member or below it: a condition on the object that does not look into the
member but asks for the value of the object or requires the member; below the member a condition
that looks into no member and does not ask for a value, or whether there is a list. -/
inductive Unnoted (name : String) : List String → Reading → Prop where
  | root {condition : Json} (hnamed : name ∉ named condition)
      (h : AsksForValue condition ∨ Requires condition name) : Unnoted name [] (.fits condition)
  | below {condition : Json} (segments : List String) (hnamed : named condition = [])
      (hvalue : ¬ AsksForValue condition) : Unnoted name (name :: segments) (.fits condition)
  | list (segments : List String) : Unnoted name (name :: segments) .isList

/-- The path is that of a member or leads on from there. -/
def AtOrBelow (name path : String) : Prop :=
  path = Pointer.build [name] ∨ Pointer.isDescendant (Pointer.build [name]) path = true

theorem atOrBelow_build (name : String) (segments : List String) :
    AtOrBelow name (Pointer.build (name :: segments)) := by
  cases segments with
  | nil => exact .inl rfl
  | cons segment rest =>
    have hlength : 1 < (name :: segment :: rest).length := by simp
    have habove := Pointer.isDescendant_build_take hlength
    exact .inr habove

variable {name : String} {a b : Fields}

/-- What parts two objects that differ in one member is noted there, unless it is not noted. -/
theorem noted_or_unnoted [Patterns] (hsame : SameBut name a b)
    (h : PartsAt schema (some (.obj a)) (some (.obj b)) segments reading) :
    (∃ found ∈ reading.dependencies (Pointer.build segments), AtOrBelow name found.source) ∨
      Unnoted name segments reading := by
  have hne := h.outcome_ne
  cases segments with
  | nil =>
    cases reading with
    | isList => exact absurd rfl hne
    | fits condition =>
      by_cases hnamed : name ∈ named condition
      · exact .inl ⟨_, mem_dependencies_iff.2 (.inl ⟨name, hnamed, rfl⟩),
          .inl (Pointer.append_build [] name)⟩
      · refine .inr (.root hnamed ?_)
        by_contra hread
        obtain ⟨hvalue, hrequired⟩ := not_or.1 hread
        refine hne (accepts_eq_of_members hvalue (fun key hkey => hsame key ?_) ?_)
        · rintro rfl
          exact hnamed hkey
        · intro key hkey
          unfold Entries.contains
          rw [hsame key (by rintro rfl; exact hrequired hkey)]
  | cons head rest =>
    -- The other members are the same, and then so is all that is read below them.
    obtain rfl : head = name := by
      by_contra hhead
      exact hne (congrArg (fun v => reading.outcome (memberAt? rest v)) (hsame head hhead))
    cases reading with
    | isList => exact .inr (.list rest)
    | fits condition =>
      by_cases hvalue : AsksForValue condition
      · exact .inl ⟨_, mem_dependencies_iff.2 (.inr ⟨hvalue, rfl⟩), atOrBelow_build head rest⟩
      · cases hnamed : named condition with
        | nil => exact .inr (.below rest hnamed hvalue)
        | cons inner _ =>
          have hinner : inner ∈ named condition := hnamed ▸ List.mem_cons_self
          refine .inl ⟨_, mem_dependencies_iff.2 (.inl ⟨inner, hinner, rfl⟩), ?_⟩
          rw [Pointer.append_build]
          exact atOrBelow_build head (rest ++ [inner])

end Conditional

namespace Pipeline

open Conditional

theorem notes_of_partsAt [Patterns] {schema : Json} {data other : Option Json}
    {segments : List String}
    {reading : Reading} (h : PartsAt schema data other segments reading) {found : Dependency}
    (hfound : found ∈ reading.dependencies (Pointer.build segments)) :
    (dependencies schema data).Notes found.source found.dependent := by
  rw [notes_dependencies_iff]
  refine h.mem_resolve ?_
  rwa [Pointer.join_empty]

/-- If two objects that differ in one member give different schemas, then there is a reading at
which the passes for them part, and either the dependencies found for the first have the member or
something below it as a source, or no such reading is noted there. A condition that asks for the
value of the whole object is noted at the root. -/
theorem differing_resolutions_noted [Patterns] {schema : Json} {name : String} {a b : Fields}
    (hsame : SameBut name a b)
    (hdiffer : (Conditional.resolve schema (some (.obj a)) "").1 ≠
      (Conditional.resolve schema (some (.obj b)) "").1) :
    (∃ segments reading, PartsAt schema (some (.obj a)) (some (.obj b)) segments reading) ∧
    ((∃ source dependent, (dependencies schema (some (.obj a))).Notes source dependent ∧
        AtOrBelow name source) ∨
      ∀ segments reading, PartsAt schema (some (.obj a)) (some (.obj b)) segments reading →
        Unnoted name segments reading) ∧
    ∀ condition, PartsAt schema (some (.obj a)) (some (.obj b)) [] (.fits condition) →
      AsksForValue condition → (dependencies schema (some (.obj a))).Notes "" "" := by
  refine ⟨exists_partsAt fun heq => hdiffer (congrArg Prod.fst heq), ?_, ?_⟩
  · by_cases hnoted : ∃ source dependent,
        (dependencies schema (some (.obj a))).Notes source dependent ∧ AtOrBelow name source
    · exact .inl hnoted
    · refine .inr fun segments reading hparts => ?_
      rcases noted_or_unnoted hsame hparts with ⟨found, hfound, hsource⟩ | hunnoted
      · exact absurd ⟨_, _, notes_of_partsAt hparts hfound, hsource⟩ hnoted
      · exact hunnoted
  · intro condition hparts hvalue
    have hfound : (⟨"", ""⟩ : Dependency) ∈
        (Reading.fits condition).dependencies (Pointer.build []) :=
      mem_dependencies_iff.2 (.inr ⟨hvalue, rfl⟩)
    exact notes_of_partsAt hparts hfound

/-- An account of a business that names its company has a title. -/
def accountForm : Json :=
  .obj [("if", .obj [("properties", .obj [("type", .obj [("const", .str "business")])])]),
    ("then", .obj [("if", .obj [("required", .arr [.str "company"])]),
      ("then", .obj [("title", .str "Company")])])]

/-- The account of a business. -/
def businessAccount : Fields := [("company", .str "A"), ("type", .str "business")]

/-- The same account with another type. -/
def privateAccount : Fields := [("company", .str "A"), ("type", .str "private")]

theorem resolve_accountForm_business :
    Conditional.resolve accountForm (some (.obj businessAccount)) "" =
      (.obj [("title", .str "Company")], [⟨"/type", ""⟩]) := by
  have htitle : Conditional.resolve (.obj [("title", .str "Company")])
      (some (.obj businessAccount)) "" = (.obj [("title", .str "Company")], []) := by
    rw [resolve_of_if_none rfl, resolveBelow_of_values (by simp)]
  -- both branches are taken, the second one without a dependency
  rw [accountForm, resolve_of_branch rfl rfl, resolve_of_branch rfl rfl]
  exact congrArg (fun r => (r.1, ⟨"/type", ""⟩ :: r.2)) htitle

theorem resolve_accountForm_private :
    Conditional.resolve accountForm (some (.obj privateAccount)) "" =
      (.obj [], [⟨"/type", ""⟩]) := by
  rw [accountForm, resolve_of_branch_none rfl rfl, resolveBelow_of_values (fun _ h => by cases h)]
  rfl

theorem differing_resolutions_noted_accountForm :
    SameBut "type" businessAccount privateAccount ∧
      (Conditional.resolve accountForm (some (.obj businessAccount)) "").1 ≠
        (Conditional.resolve accountForm (some (.obj privateAccount)) "").1 ∧
      (∃ segments reading, PartsAt accountForm (some (.obj businessAccount))
        (some (.obj privateAccount)) segments reading) ∧
      ((∃ source dependent,
          (dependencies accountForm (some (.obj businessAccount))).Notes source dependent ∧
          AtOrBelow "type" source) ∨
        ∀ segments reading, PartsAt accountForm (some (.obj businessAccount))
          (some (.obj privateAccount)) segments reading → Unnoted "type" segments reading) ∧
      ∀ condition, PartsAt accountForm (some (.obj businessAccount))
          (some (.obj privateAccount)) [] (.fits condition) → AsksForValue condition →
        (dependencies accountForm (some (.obj businessAccount))).Notes "" "" := by
  have hsame : SameBut "type" businessAccount privateAccount := by
    intro key hkey
    simp [businessAccount, privateAccount, Entries.get?_cons, Ne.symm hkey]
  have hdiffer : (Conditional.resolve accountForm (some (.obj businessAccount)) "").1 ≠
      (Conditional.resolve accountForm (some (.obj privateAccount)) "").1 := by
    rw [resolve_accountForm_business, resolve_accountForm_private]
    simp
  exact ⟨hsame, hdiffer, differing_resolutions_noted hsame hdiffer⟩

/-- A form with a title where the data have a member. -/
def requiringForm : Json :=
  .obj [("if", .obj [("required", .arr [.str "a"])]), ("then", .obj [("title", .str "T")])]

/-- A member that decides on the schema by being there, as `required` asks, is noted nowhere. -/
theorem required_member_unnoted :
    SameBut "a" [("a", .null)] [] ∧
      (Conditional.resolve requiringForm (some (.obj [("a", .null)])) "").1 ≠
        (Conditional.resolve requiringForm (some (.obj [])) "").1 ∧
      ¬ ∃ source dependent,
        (dependencies requiringForm (some (.obj [("a", .null)]))).Notes source dependent ∧
          AtOrBelow "a" source := by
  have htitle : Conditional.resolve (.obj [("title", .str "T")]) (some (.obj [("a", .null)])) "" =
      (.obj [("title", .str "T")], []) := by
    rw [resolve_of_if_none rfl, resolveBelow_of_values (by simp)]
  have hpresent : Conditional.resolve requiringForm (some (.obj [("a", .null)])) "" =
      (.obj [("title", .str "T")], []) := by
    rw [requiringForm, resolve_of_branch rfl rfl]
    exact htitle
  have habsent : Conditional.resolve requiringForm (some (.obj [])) "" = (.obj [], []) := by
    rw [requiringForm, resolve_of_branch_none rfl rfl,
      resolveBelow_of_values (fun _ h => by cases h)]
    rfl
  refine ⟨fun key hkey => ?_, ?_, ?_⟩
  · simp [Entries.get?_cons, Ne.symm hkey]
  · rw [hpresent, habsent]
    simp
  · rintro ⟨source, dependent, hnotes, -⟩
    rw [notes_dependencies_iff, hpresent] at hnotes
    cases hnotes

end Pipeline
end SchemaForm
