import SchemaForm.Proofs.Schema.Merge
import SchemaForm.Regex.Engine

/-!
# Merging narrows

An elementary schema restricts data by types, members, bounds and lengths alone. What a merged
schema accepts then fits every keyword of both sides, and the merged schema is elementary again.
Main statement: what is accepted after folding elementary schemas into one is accepted by each.
-/

namespace SchemaForm.Schema

open Json

/-- No `const`, `enum` or `pattern`, and the other keywords that matching reads have the form that
it reads. -/
structure ElementaryKeywords (keywords : Fields) : Prop where
  const : Entries.get? "const" keywords = none
  enum : Entries.get? "enum" keywords = none
  pattern : Entries.get? "pattern" keywords = none
  type : ∀ v, Entries.get? "type" keywords = some v → NamesTypes v
  minimum : ∀ v, Entries.get? "minimum" keywords = some v → ∃ n, v = .num n
  maximum : ∀ v, Entries.get? "maximum" keywords = some v → ∃ n, v = .num n
  minLength : ∀ v, Entries.get? "minLength" keywords = some v →
    ∃ n : Nat, n < Nat.pow 2 53 ∧ v = int n
  members : ∀ v, Entries.get? "properties" keywords = some v → v.isObj = true

/-- A schema object with elementary keywords only, and so the schemas of its properties. -/
inductive Elementary : Json → Prop where
  | obj {keywords : Fields} (own : ElementaryKeywords keywords)
      (property : ∀ entry ∈ properties keywords, Elementary entry.2) : Elementary (.obj keywords)

variable {a b : Fields} {data : Option Json}

theorem ElementaryKeywords.undecided (h : ElementaryKeywords a) : Undecided a := by
  refine ⟨h.const, ?_⟩
  rw [getItems?, Json.get?, h.enum]
  rfl

/-! ### Elementary schemas merge into one -/

theorem namesTypes_joined {u v : Option Json} (hu : ∀ w, u = some w → NamesTypes w)
    (hv : ∀ w, v = some w → NamesTypes w) : ∀ w, joined "type" u v = some w → NamesTypes w := by
  intro w h
  cases v with
  | none => exact hu w h
  | some v =>
    rw [joined_of_mergeValue (by decide) (by decide)] at h
    cases h
    exact namesTypes_mergeTypes hu (hv v rfl)

theorem isObj_joined {u v : Option Json} (hu : ∀ w, u = some w → w.isObj = true)
    (hv : ∀ w, v = some w → w.isObj = true) :
    ∀ w, joined "properties" u v = some w → w.isObj = true := by
  intro w h
  cases v with
  | none => exact hu w h
  | some v =>
    cases v with
    | obj named =>
      rw [joined, show mergeRule "properties" = .schemasByName from rfl, mergeJoined] at h
      cases h
      rfl
    | _ => cases hv _ rfl

theorem ElementaryKeywords.merge (ha : ElementaryKeywords a) (hb : ElementaryKeywords b)
    (hnodup : (Entries.keys b).Nodup) : ElementaryKeywords (mergeKeywords a b) := by
  constructor
  · rw [get?_mergeKeywords hnodup, ha.const, hb.const]
    rfl
  · rw [get?_mergeKeywords hnodup, ha.enum, hb.enum]
    rfl
  · rw [get?_mergeKeywords hnodup, ha.pattern, hb.pattern]
    rfl
  · rw [get?_mergeKeywords hnodup]
    exact namesTypes_joined ha.type hb.type
  · rw [get?_mergeKeywords hnodup]
    exact forall_joined_of_bound (fun _ _ => joined_of_mergeValue (by decide) (by decide) _ _)
      ha.minimum hb.minimum
  · rw [get?_mergeKeywords hnodup]
    exact forall_joined_of_bound (fun _ _ => joined_of_mergeValue (by decide) (by decide) _ _)
      ha.maximum hb.maximum
  · rw [get?_mergeKeywords hnodup]
    exact forall_joined_of_bound (fun _ _ => joined_of_mergeValue (by decide) (by decide) _ _)
      ha.minLength hb.minLength
  · rw [get?_mergeKeywords hnodup]
    exact isObj_joined ha.members hb.members

theorem Elementary.merge {second : Json} (hsecond : Elementary second)
    (hunique : second.KeysUnique) :
    ∀ first, Elementary first → first.KeysUnique → Elementary (Schema.merge first second) := by
  induction hsecond with
  | @obj b ownB propertyB ih =>
    intro first hfirst huniqueFirst
    cases hfirst with
    | @obj a ownA propertyA =>
      have ha := keysUnique_obj_iff.1 huniqueFirst
      have hb := keysUnique_obj_iff.1 hunique
      rw [Schema.merge]
      refine .obj (ownA.merge ownB hb.nodup) ?_
      refine forall_properties_mergeKeywords (P := fun _ schema => Elementary schema) ha hb
        propertyA propertyB ?_
      intro name u v hu hv
      exact ih _ (Entries.mem_of_get? hv) ((membersUnique_properties hb).get? hv) u
        (propertyA _ (Entries.mem_of_get? hu)) ((membersUnique_properties ha).get? hu)

/-! ### Keyword by keyword -/

/-- A value of a common type has a type of both sides. -/
theorem admitted_of_commonTypes {types others : Option (List JsonType)}
    (h : ∀ common, commonTypes types others = some common →
      ∃ d, data = some d ∧ ∃ type ∈ common, type.admits d = true) :
    (∀ own, types = some own → ∃ d, data = some d ∧ ∃ type ∈ own, type.admits d = true) ∧
      ∀ own, others = some own → ∃ d, data = some d ∧ ∃ type ∈ own, type.admits d = true := by
  unfold commonTypes at h
  refine forall_of_merge ?_ h
  rintro types others ⟨d, hd, type, htype, hadmits⟩
  obtain ⟨hmem, hcontains⟩ := List.mem_filter.1 htype
  exact ⟨⟨d, hd, type, hmem, hadmits⟩, d, hd, type, List.contains_iff_mem.1 hcontains, hadmits⟩

/-- A number above the tighter lower bound is above both. -/
theorem above_of_tightest {x : Int} {m n : Option Binary64}
    (h : ∀ least, tightest (fun x y => y.le x) m n = some least → least.units ≤ x) :
    (∀ least, m = some least → least.units ≤ x) ∧ ∀ least, n = some least → least.units ≤ x := by
  unfold tightest at h
  refine forall_of_merge ?_ h
  intro m n hleast
  by_cases hle : n.le m = true
  · rw [if_pos hle] at hleast
    exact ⟨hleast, Int.le_trans (Binary64.le_iff.1 hle) hleast⟩
  · rw [if_neg hle] at hleast
    rw [Binary64.le_iff, Int.not_le] at hle
    exact ⟨Int.le_trans (Int.le_of_lt hle) hleast, hleast⟩

/-- A number below the tighter upper bound is below both. -/
theorem below_of_tightest {x : Int} {m n : Option Binary64}
    (h : ∀ most, tightest Binary64.le m n = some most → x ≤ most.units) :
    (∀ most, m = some most → x ≤ most.units) ∧ ∀ most, n = some most → x ≤ most.units := by
  unfold tightest at h
  refine forall_of_merge ?_ h
  intro m n hmost
  by_cases hle : m.le n = true
  · rw [if_pos hle] at hmost
    exact ⟨hmost, Int.le_trans hmost (Binary64.le_iff.1 hle)⟩
  · rw [if_neg hle] at hmost
    rw [Binary64.le_iff, Int.not_le] at hle
    exact ⟨Int.le_trans hmost (Int.le_of_lt hle), hmost⟩

theorem least_of_longest {length : Nat} {x y : Option Nat}
    (h : ∀ least, longest x y = some least → least ≤ length) :
    (∀ least, x = some least → least ≤ length) ∧ ∀ least, y = some least → least ≤ length := by
  unfold longest at h
  exact forall_of_merge (fun _ _ hmax => Nat.max_le.1 hmax) h

/-- The schemas of the properties accept what their merged schema accepts. -/
theorem members_of_mergeKeywords [Patterns] (ha : MembersUnique a) (hb : MembersUnique b)
    (hobj : ∀ v, Entries.get? "properties" b = some v → v.isObj = true) {fields : Fields}
    (hnarrow : ∀ name u v, Entries.get? name (properties a) = some u →
      Entries.get? name (properties b) = some v →
      accepts (merge u v) (Entries.get? name fields) = true →
      accepts u (Entries.get? name fields) = true ∧ accepts v (Entries.get? name fields) = true)
    (h : ∀ entry ∈ properties (mergeKeywords a b),
      accepts entry.2 (Entries.get? entry.1 fields) = true) :
    (∀ entry ∈ properties a, accepts entry.2 (Entries.get? entry.1 fields) = true) ∧
      ∀ entry ∈ properties b, accepts entry.2 (Entries.get? entry.1 fields) = true := by
  have hmerged : ∀ name w,
      mergeOpt (Entries.get? name (properties a)) (Entries.get? name (properties b)) = some w →
      accepts w (Entries.get? name fields) = true := by
    intro name w hw
    rw [← get?_properties_mergeKeywords hb hobj] at hw
    exact h _ (Entries.mem_of_get? hw)
  constructor
  · rintro ⟨name, u⟩ hmem
    have hu := Entries.get?_of_mem (membersUnique_properties ha).nodup hmem
    dsimp only at hu ⊢
    cases hv : Entries.get? name (properties b) with
    | none => exact hmerged name u (by rw [hu, hv, mergeOpt])
    | some v =>
      refine (hnarrow name u v hu hv ?_).1
      exact hmerged name _ (by rw [hu, hv, mergeOpt, Option.elim_some])
  · rintro ⟨name, v⟩ hmem
    have hv := Entries.get?_of_mem (membersUnique_properties hb).nodup hmem
    dsimp only at hv ⊢
    cases hu : Entries.get? name (properties a) with
    | none => exact hmerged name v (by rw [hu, hv, mergeOpt, Option.elim_none])
    | some u =>
      refine (hnarrow name u v hu hv ?_).2
      exact hmerged name _ (by rw [hu, hv, mergeOpt, Option.elim_some])

/-! ### All keywords -/

/-- What fits elementary keywords merged fits both sides, if so for the schemas of properties that
both sides have. -/
theorem fits_of_mergeKeywords [Patterns] (ownA : ElementaryKeywords a) (ownB : ElementaryKeywords b)
    (ha : MembersUnique a) (hb : MembersUnique b)
    (hnarrow : ∀ name u v d, Entries.get? name (properties a) = some u →
      Entries.get? name (properties b) = some v → accepts (merge u v) d = true →
      accepts u d = true ∧ accepts v d = true)
    (h : Fits (mergeKeywords a b) data) : Fits a data ∧ Fits b data := by
  have htypes := h.types
  rw [types?_mergeKeywords hb.nodup ownA.type ownB.type] at htypes
  obtain ⟨typesA, typesB⟩ := admitted_of_commonTypes htypes
  have hproperties : ∀ fields, data = some (.obj fields) →
      (∀ entry ∈ properties a, accepts entry.2 (Entries.get? entry.1 fields) = true) ∧
        ∀ entry ∈ properties b, accepts entry.2 (Entries.get? entry.1 fields) = true := by
    intro fields hdata
    refine members_of_mergeKeywords ha hb ownB.members ?_ (h.properties fields hdata)
    intro name u v
    exact hnarrow name u v _
  have hrequired : ∀ fields, data = some (.obj fields) → ∀ name,
      .str name ∈ requiredItems a ∨ .str name ∈ requiredItems b →
      Entries.contains name fields = true := by
    intro fields hdata name hname
    exact h.required fields hdata name ((mem_requiredItems_mergeKeywords_iff hb.nodup).2 hname)
  have hminimum : ∀ n, data = some (.num n) →
      (∀ least, bound? "minimum" a = some least → least.units ≤ n.toBinary64.units) ∧
        ∀ least, bound? "minimum" b = some least → least.units ≤ n.toBinary64.units := by
    intro n hdata
    have hleast := h.minimum n hdata
    rw [bound?_mergeKeywords hb.nodup (fun _ _ => joined_of_mergeValue (by decide) (by decide) _ _)
      ownA.minimum ownB.minimum] at hleast
    exact above_of_tightest hleast
  have hmaximum : ∀ n, data = some (.num n) →
      (∀ most, bound? "maximum" a = some most → n.toBinary64.units ≤ most.units) ∧
        ∀ most, bound? "maximum" b = some most → n.toBinary64.units ≤ most.units := by
    intro n hdata
    have hmost := h.maximum n hdata
    rw [bound?_mergeKeywords hb.nodup (fun _ _ => joined_of_mergeValue (by decide) (by decide) _ _)
      ownA.maximum ownB.maximum] at hmost
    exact below_of_tightest hmost
  have hlength : ∀ s, data = some (.str s) →
      (∀ least, (Entries.get? "minLength" a).bind nat? = some least → least ≤ s.length) ∧
        ∀ least, (Entries.get? "minLength" b).bind nat? = some least → least ≤ s.length := by
    intro s hdata
    have hleast := h.minLength s hdata
    rw [minLength_mergeKeywords hb.nodup ownA.minLength ownB.minLength] at hleast
    exact least_of_longest hleast
  constructor
  · refine ⟨typesA, fun fields hdata => (hproperties fields hdata).1, ?_,
      fun n hdata => (hminimum n hdata).1, fun n hdata => (hmaximum n hdata).1,
      fun s hdata => (hlength s hdata).1, ?_⟩
    · intro fields hdata name hname
      exact hrequired fields hdata name (Or.inl hname)
    · intro s _ pattern hpattern
      rw [ownA.pattern] at hpattern
      cases hpattern
  · refine ⟨typesB, fun fields hdata => (hproperties fields hdata).2, ?_,
      fun n hdata => (hminimum n hdata).2, fun n hdata => (hmaximum n hdata).2,
      fun s hdata => (hlength s hdata).2, ?_⟩
    · intro fields hdata name hname
      exact hrequired fields hdata name (Or.inr hname)
    · intro s _ pattern hpattern
      rw [ownB.pattern] at hpattern
      cases hpattern

/-- What a merged elementary schema accepts, both sides accept. -/
theorem accepts_of_accepts_merge [Patterns] {second : Json} (hsecond : Elementary second)
    (hunique : second.KeysUnique) :
    ∀ (first : Json) (data : Option Json), Elementary first → first.KeysUnique →
      accepts (merge first second) data = true →
      accepts first data = true ∧ accepts second data = true := by
  induction hsecond with
  | @obj b ownB propertyB ih =>
    intro first data hfirst huniqueFirst haccepts
    cases hfirst with
    | @obj a ownA propertyA =>
      have ha := keysUnique_obj_iff.1 huniqueFirst
      have hb := keysUnique_obj_iff.1 hunique
      have hown := ownA.merge ownB hb.nodup
      rw [merge, accepts_iff_fits hown.undecided] at haccepts
      rw [accepts_iff_fits ownA.undecided, accepts_iff_fits ownB.undecided]
      refine fits_of_mergeKeywords ownA ownB ha hb ?_ haccepts
      -- only a property of both sides is merged, so the schemas of the second one shrink
      intro name u v d hu hv
      exact ih _ (Entries.mem_of_get? hv) ((membersUnique_properties hb).get? hv) u d
        (propertyA _ (Entries.mem_of_get? hu)) ((membersUnique_properties ha).get? hu)

/-- Merging elementary schemas one after the other never weakens: what the result accepts, every
one of them accepts. -/
theorem accepts_of_accepts_foldl_merge [Patterns] {first : Document} {parts : List Document}
    {data : Option Json} (hfirst : Elementary first) (hparts : ∀ part ∈ parts, Elementary part)
    (h : accepts ((parts.map Document.value).foldl merge first) data = true) :
    accepts first data = true ∧ ∀ part ∈ parts, accepts part data = true := by
  induction parts generalizing first with
  | nil =>
    refine ⟨h, ?_⟩
    intro part hpart
    cases hpart
  | cons part rest ih =>
    have helementary := hparts part List.mem_cons_self
    have hmerged : Elementary (first.merge part) :=
      helementary.merge part.keysUnique first hfirst first.keysUnique
    rw [List.map_cons, List.foldl_cons] at h
    obtain ⟨haccepts, hrest⟩ :=
      ih hmerged (fun part hpart => hparts part (List.mem_cons_of_mem _ hpart)) h
    obtain ⟨hfirstAccepts, hpart⟩ := accepts_of_accepts_merge helementary part.keysUnique first
      data hfirst first.keysUnique haccepts
    refine ⟨hfirstAccepts, ?_⟩
    intro other hother
    rcases List.mem_cons.1 hother with rfl | hother
    · exact hpart
    · exact hrest other hother

/-- An object with a positive count in it, or `null`. -/
def countForm : Json := .obj
  [("type", .arr [.str "object", .str "null"]),
    ("properties", .obj
      [("count", .obj [("type", .arr [.str "integer", .str "string"]), ("minimum", int 1)])]),
    ("required", .arr [.str "count"])]

/-- An object with a count below ten and a name. -/
def namedForm : Json := .obj
  [("type", .str "object"),
    ("properties", .obj
      [("count", .obj [("type", .str "integer"), ("maximum", int 9)]),
        ("name", .obj [("minLength", int 2)])])]

theorem elementary_countForm : Elementary countForm := by
  refine .obj ⟨rfl, rfl, rfl, ?_, ?_, ?_, ?_, ?_⟩ ?_
  · intro v hv
    cases hv
    exact ⟨["object", "null"], rfl⟩
  · intro v hv
    cases hv
  · intro v hv
    cases hv
  · intro v hv
    cases hv
  · intro v hv
    cases hv
    rfl
  · intro entry hentry
    obtain rfl := List.mem_singleton.1 hentry
    refine .obj ⟨rfl, rfl, rfl, ?_, ?_, ?_, ?_, ?_⟩ ?_
    · intro v hv
      cases hv
      exact ⟨["integer", "string"], rfl⟩
    · intro v hv
      cases hv
      exact ⟨_, rfl⟩
    · intro v hv
      cases hv
    · intro v hv
      cases hv
    · intro v hv
      cases hv
    · intro entry hentry
      cases hentry

theorem elementary_namedForm : Elementary namedForm := by
  refine .obj ⟨rfl, rfl, rfl, ?_, ?_, ?_, ?_, ?_⟩ ?_
  · intro v hv
    cases hv
    exact ⟨["object"], rfl⟩
  · intro v hv
    cases hv
  · intro v hv
    cases hv
  · intro v hv
    cases hv
  · intro v hv
    cases hv
    rfl
  · intro entry hentry
    rcases List.mem_cons.1 hentry with rfl | hentry
    · refine .obj ⟨rfl, rfl, rfl, ?_, ?_, ?_, ?_, ?_⟩ ?_
      · intro v hv
        cases hv
        exact ⟨["integer"], rfl⟩
      · intro v hv
        cases hv
      · intro v hv
        cases hv
        exact ⟨_, rfl⟩
      · intro v hv
        cases hv
      · intro v hv
        cases hv
      · intro entry hentry
        cases hentry
    · obtain rfl := List.mem_singleton.1 hentry
      refine .obj ⟨rfl, rfl, rfl, ?_, ?_, ?_, ?_, ?_⟩ ?_
      · intro v hv
        cases hv
      · intro v hv
        cases hv
      · intro v hv
        cases hv
      · intro v hv
        cases hv
        exact ⟨2, by decide, rfl⟩
      · intro v hv
        cases hv
      · intro entry hentry
        cases hentry

theorem keysUnique_countForm : countForm.KeysUnique := by
  simp [countForm]

theorem keysUnique_namedForm : namedForm.KeysUnique := by
  simp [namedForm]

/-- Both forms accept what fits the form merged of them, with the count inside. -/
theorem accepts_of_accepts_countForm :
    let data := some (.obj [("name", .str "ab"), ("count", int 4)])
    accepts ([namedForm].foldl merge countForm) data = true ∧
      accepts countForm data = true ∧ accepts namedForm data = true := by
  intro data
  let named : Document := ⟨namedForm, keysUnique_namedForm⟩
  have hparts : ∀ part ∈ [named], Elementary part :=
    List.forall_mem_singleton.2 elementary_namedForm
  have haccepts : accepts ([namedForm].foldl merge countForm) data = true := by decide +kernel
  obtain ⟨hcount, hnamed⟩ := @accepts_of_accepts_foldl_merge _ ⟨countForm, keysUnique_countForm⟩
    [named] data elementary_countForm hparts haccepts
  exact ⟨haccepts, hcount, hnamed named List.mem_cons_self⟩

end SchemaForm.Schema
