import SchemaForm.Proofs.Json.Congruent
import SchemaForm.Proofs.Schema.Merge
import SchemaForm.Regex.Engine

/-!
# What both sides accept

A value that two schemas accept is accepted by the merged schema too, with one exception: types are
intersected by name, and a whole number is an `integer` and a `number`. If one side names only the
one and the other side only the other, no name is left. Main statement: for data that both sides
accept, such a clash, at the value or at a member of it, is exactly what makes the merged schema
refuse them.
-/

namespace SchemaForm.Schema

open Json

/-- The keywords that list alternatives have the form that matching reads. -/
structure LegibleKeywords (keywords : Fields) : Prop where
  type : ∀ v, Entries.get? "type" keywords = some v → NamesTypes v
  enum : ∀ v, Entries.get? "enum" keywords = some v → v.isArr = true

/-- A schema with legible keywords, and so the schemas of its properties. A schema that is no
object has none. -/
inductive Legible : Json → Prop where
  | obj {keywords : Fields} (own : LegibleKeywords keywords)
      (property : ∀ entry ∈ properties keywords, Legible entry.2) : Legible (.obj keywords)
  | other {v : Json} (h : v.isObj = false) : Legible v

/-- One list names `integer` and not `number`, the other `number` and not `integer`. -/
def Crossed (own other : List JsonType) : Prop :=
  (.integer ∈ own ∧ .number ∉ own ∧ .number ∈ other ∧ .integer ∉ other) ∨
    (.number ∈ own ∧ .integer ∉ own ∧ .integer ∈ other ∧ .number ∉ other)

/-- The types that two schemas name for a whole number are crossed, at the value itself or at a
member whose property both describe. -/
inductive Clash : Json → Json → Option Json → Prop where
  | types {a b : Fields} {n : Number} {own other : List JsonType} (ha : Undecided a)
      (hb : Undecided b) (hown : types? (.obj a) = some own) (hother : types? (.obj b) = some other)
      (hwhole : n.isWhole = true) (hcrossed : Crossed own other) :
      Clash (.obj a) (.obj b) (some (.num n))
  | property {a b fields : Fields} {name : String} {u v : Json} (ha : Undecided a)
      (hb : Undecided b) (hu : Entries.get? name (properties a) = some u)
      (hv : Entries.get? name (properties b) = some v)
      (h : Clash u v (Entries.get? name fields)) : Clash (.obj a) (.obj b) (some (.obj fields))

variable {a b : Fields} {data : Option Json}

/-! ### Decided by one keyword -/

theorem Legible.keywords (h : Legible (.obj a)) :
    LegibleKeywords a ∧ ∀ entry ∈ properties a, Legible entry.2 := by
  cases h with
  | obj own property => exact ⟨own, property⟩
  | other hnot => cases hnot

theorem getItems?_enum_mergeKeywords (hb : (Entries.keys b).Nodup) (ownA : LegibleKeywords a)
    (ownB : LegibleKeywords b) :
    (Json.obj (mergeKeywords a b)).getItems? "enum" =
      Option.merge (fun xs ys => xs.filter fun x => ys.any x.equiv)
        ((Json.obj a).getItems? "enum") ((Json.obj b).getItems? "enum") := by
  show (Entries.get? "enum" (mergeKeywords a b)).bind items? =
    Option.merge _ ((Entries.get? "enum" a).bind items?) ((Entries.get? "enum" b).bind items?)
  rw [get?_mergeKeywords hb]
  cases hv : Entries.get? "enum" b with
  | none =>
    rw [joined]
    cases (Entries.get? "enum" a).bind items? <;> rfl
  | some v =>
    rw [joined_of_mergeValue (by decide) (by decide)]
    show (mergeOptions _ v).items? = _
    cases v with
    | arr ys =>
      cases hu : Entries.get? "enum" a with
      | none => rfl
      | some u =>
        cases u with
        | arr xs => rfl
        | _ => cases ownA.enum _ hu
    | _ => cases ownB.enum _ hv

theorem Undecided.merge (ha : Undecided a) (hb : Undecided b) (hnodup : (Entries.keys b).Nodup)
    (ownA : LegibleKeywords a) (ownB : LegibleKeywords b) :
    Undecided (mergeKeywords a b) := by
  constructor
  · rw [get?_mergeKeywords hnodup, ha.const, hb.const]
    rfl
  · rw [getItems?_enum_mergeKeywords hnodup ownA ownB, ha.enum, hb.enum]
    rfl

/-- Options that one value equals are kept. -/
theorem any_equiv_filter {d : Json} (hd : d.KeysUnique) {xs ys : List Json}
    (hxs : ∀ x ∈ xs, x.KeysUnique) (hys : ∀ y ∈ ys, y.KeysUnique) (hx : xs.any d.equiv = true)
    (hy : ys.any d.equiv = true) :
    (xs.filter fun x => ys.any x.equiv).any d.equiv = true := by
  rw [List.any_eq_true] at hx hy ⊢
  obtain ⟨x, hmem, hdx⟩ := hx
  obtain ⟨y, hmemY, hdy⟩ := hy
  refine ⟨x, List.mem_filter.2 ⟨hmem, ?_⟩, hdx⟩
  rw [List.any_eq_true]
  have hunique := hxs x hmem
  exact ⟨y, hmemY, equiv_trans hunique hd (hys y hmemY) (equiv_symm hd hunique hdx) hdy⟩

/-- A `const` decides alone, the later one of two. -/
theorem accepts_mergeKeywords_of_const [Patterns] (hb : (Entries.keys b).Nodup)
    (hconst : Entries.get? "const" a ≠ none ∨ Entries.get? "const" b ≠ none)
    (hacceptsA : accepts (.obj a) data = true) (hacceptsB : accepts (.obj b) data = true) :
    accepts (.obj (mergeKeywords a b)) data = true := by
  have hmerged : Entries.get? "const" (mergeKeywords a b) =
      (Entries.get? "const" b).orElse fun _ => Entries.get? "const" a := by
    rw [get?_mergeKeywords hb, joined_of_last rfl]
  cases hconstB : Entries.get? "const" b with
  | some expected =>
    rw [hconstB] at hmerged
    rwa [accepts_of_const hmerged, ← accepts_of_const hconstB]
  | none =>
    cases hconstA : Entries.get? "const" a with
    | some expected =>
      rw [hconstB, hconstA] at hmerged
      rwa [accepts_of_const hmerged, ← accepts_of_const hconstA]
    | none => simp [hconstA, hconstB] at hconst

/-- Without `const` the options decide; those of both sides are the common ones. -/
theorem accepts_mergeKeywords_of_enum [Patterns] (ha : MembersUnique a) (hb : MembersUnique b)
    (hdata : ∀ d ∈ data, d.KeysUnique) (ownA : LegibleKeywords a) (ownB : LegibleKeywords b)
    (hconstA : Entries.get? "const" a = none) (hconstB : Entries.get? "const" b = none)
    (henum : (Json.obj a).getItems? "enum" ≠ none ∨ (Json.obj b).getItems? "enum" ≠ none)
    (hacceptsA : accepts (.obj a) data = true) (hacceptsB : accepts (.obj b) data = true) :
    accepts (.obj (mergeKeywords a b)) data = true := by
  have hconst : Entries.get? "const" (mergeKeywords a b) = none := by
    rw [get?_mergeKeywords hb.nodup, joined_of_last rfl, hconstA, hconstB]
    rfl
  have hmerged := getItems?_enum_mergeKeywords hb.nodup ownA ownB
  cases henumA : (Json.obj a).getItems? "enum" with
  | none =>
    cases henumB : (Json.obj b).getItems? "enum" with
    | none => simp [henumA, henumB] at henum
    | some ys =>
      rw [henumA, henumB] at hmerged
      rwa [accepts_of_enum hconst hmerged, ← accepts_of_enum hconstB henumB]
  | some xs =>
    cases henumB : (Json.obj b).getItems? "enum" with
    | none =>
      rw [henumA, henumB] at hmerged
      rwa [accepts_of_enum hconst hmerged, ← accepts_of_enum hconstA henumA]
    | some ys =>
      rw [henumA, henumB] at hmerged
      rw [accepts_of_enum hconstA henumA] at hacceptsA
      rw [accepts_of_enum hconstB henumB] at hacceptsB
      rw [accepts_of_enum hconst hmerged]
      cases data with
      | none => cases hacceptsA
      | some d =>
        obtain ⟨v, hv, hitems⟩ := Option.bind_eq_some_iff.1 henumA
        obtain ⟨w, hw, hitems'⟩ := Option.bind_eq_some_iff.1 henumB
        exact any_equiv_filter (hdata d rfl) ((ha.get? hv).items? hitems)
          ((hb.get? hw).items? hitems') hacceptsA hacceptsB

/-- Where `const` or `enum` decides for one side, the merged schema accepts what both accept. -/
theorem accepts_mergeKeywords_of_decided [Patterns] (ha : MembersUnique a) (hb : MembersUnique b)
    (hdata : ∀ d ∈ data, d.KeysUnique) (ownA : LegibleKeywords a)
    (ownB : LegibleKeywords b) (hdecided : ¬(Undecided a ∧ Undecided b))
    (hacceptsA : accepts (.obj a) data = true) (hacceptsB : accepts (.obj b) data = true) :
    accepts (.obj (mergeKeywords a b)) data = true := by
  by_cases hconst : Entries.get? "const" a ≠ none ∨ Entries.get? "const" b ≠ none
  · exact accepts_mergeKeywords_of_const hb.nodup hconst hacceptsA hacceptsB
  · rw [not_or, not_not, not_not] at hconst
    obtain ⟨hconstA, hconstB⟩ := hconst
    refine accepts_mergeKeywords_of_enum ha hb hdata ownA ownB hconstA hconstB ?_ hacceptsA
      hacceptsB
    by_contra henum
    rw [not_or, not_not, not_not] at henum
    exact hdecided ⟨⟨hconstA, henum.1⟩, hconstB, henum.2⟩

/-! ### Types -/

/-- A whole number has the types `integer` and `number`. -/
theorem admits_num_iff {type : JsonType} {n : Number} (h : n.isWhole = true) :
    type.admits (.num n) = true ↔ type = .integer ∨ type = .number := by
  cases type <;> simp [JsonType.admits, JsonType.of, h]

/-- Crossed types have none in common that a whole number has. -/
theorem not_admits_of_crossed {n : Number} {own other : List JsonType} (hwhole : n.isWhole = true)
    (hcrossed : Crossed own other) :
    ¬∃ type ∈ own.filter other.contains, type.admits (.num n) = true := by
  rintro ⟨type, htype, hadmits⟩
  obtain ⟨hmem, hcontains⟩ := List.mem_filter.1 htype
  have hmemOther := List.contains_iff_mem.1 hcontains
  rcases (admits_num_iff hwhole).1 hadmits with rfl | rfl
  · rcases hcrossed with ⟨-, -, -, hnot⟩ | ⟨-, hnot, -, -⟩
    · exact hnot hmemOther
    · exact hnot hmem
  · rcases hcrossed with ⟨-, hnot, -, -⟩ | ⟨-, -, -, hnot⟩
    · exact hnot hmem
    · exact hnot hmemOther

/-- A value that has types of both sides has a common one, unless they are crossed. -/
theorem exists_common {d : Json} {own other : List JsonType}
    (hown : ∃ type ∈ own, type.admits d = true) (hother : ∃ type ∈ other, type.admits d = true)
    (hcrossed : ∀ n, d = .num n → n.isWhole = true → ¬Crossed own other) :
    ∃ type ∈ own.filter other.contains, type.admits d = true := by
  have hcommon : ∀ type, type ∈ own → type ∈ other → type.admits d = true →
      ∃ type ∈ own.filter other.contains, type.admits d = true := by
    intro type hmem hmem' hadmits
    exact ⟨type, List.mem_filter.2 ⟨hmem, List.contains_iff_mem.2 hmem'⟩, hadmits⟩
  obtain ⟨type, hmem, hadmits⟩ := hown
  obtain ⟨type', hmem', hadmits'⟩ := hother
  rcases JsonType.eq_or_whole_of_admits hadmits hadmits' with
    rfl | ⟨n, rfl, hwhole, ⟨rfl, rfl⟩ | ⟨rfl, rfl⟩⟩
  · exact hcommon type hmem hmem' hadmits
  · by_cases hnumber : .number ∈ own
    · exact hcommon .number hnumber hmem' hadmits'
    · by_cases hinteger : .integer ∈ other
      · exact hcommon .integer hmem hinteger hadmits
      · exact absurd (Or.inl ⟨hmem, hnumber, hmem', hinteger⟩) (hcrossed n rfl hwhole)
  · by_cases hinteger : .integer ∈ own
    · exact hcommon .integer hinteger hmem' hadmits'
    · by_cases hnumber : .number ∈ other
      · exact hcommon .number hmem hnumber hadmits
      · exact absurd (Or.inr ⟨hmem, hinteger, hmem', hnumber⟩) (hcrossed n rfl hwhole)

/-! ### All keywords -/

/-- What fits both sides fits the merged keywords, if their types are not crossed and the merged
schemas of properties accept what both accept. -/
theorem fits_mergeKeywords [Patterns] (ha : MembersUnique a) (hb : MembersUnique b)
    (ownA : LegibleKeywords a) (ownB : LegibleKeywords b)
    (hcrossed : ∀ n own other, data = some (.num n) → types? (.obj a) = some own →
      types? (.obj b) = some other → n.isWhole = true → ¬Crossed own other)
    (hproperties : ∀ fields name u v, data = some (.obj fields) →
      Entries.get? name (properties a) = some u → Entries.get? name (properties b) = some v →
      accepts u (Entries.get? name fields) = true → accepts v (Entries.get? name fields) = true →
      accepts (merge u v) (Entries.get? name fields) = true)
    (hfitsA : Fits a data) (hfitsB : Fits b data) : Fits (mergeKeywords a b) data := by
  constructor
  · rw [types?_mergeKeywords hb.nodup ownA.type ownB.type, commonTypes]
    refine forall_merge hfitsA.types hfitsB.types ?_
    intro own other hown hother
    obtain ⟨d, hd, hadmits⟩ := hfitsA.types own hown
    obtain ⟨d', hd', hadmits'⟩ := hfitsB.types other hother
    obtain rfl : d = d' := Option.some.inj (hd.symm.trans hd')
    refine ⟨d, hd, exists_common hadmits hadmits' ?_⟩
    rintro n rfl hwhole
    exact hcrossed n own other hd hown hother hwhole
  · intro fields hdata
    have hpropertiesA := hfitsA.properties fields hdata
    have hpropertiesB := hfitsB.properties fields hdata
    refine forall_properties_mergeKeywords
      (P := fun name schema => accepts schema (Entries.get? name fields) = true) ha hb
      hpropertiesA hpropertiesB ?_
    intro name u v hu hv
    exact hproperties fields name u v hdata hu hv (hpropertiesA _ (Entries.mem_of_get? hu))
      (hpropertiesB _ (Entries.mem_of_get? hv))
  · intro fields hdata name hname
    rcases (mem_requiredItems_mergeKeywords_iff hb.nodup).1 hname with hname | hname
    · exact hfitsA.required fields hdata name hname
    · exact hfitsB.required fields hdata name hname
  · intro n hdata
    exact forall_read_mergeKeywords hb.nodup
      (fun _ _ => joined_of_mergeValue (by decide) (by decide) _ _)
      (hfitsA.minimum n hdata) (hfitsB.minimum n hdata)
  · intro n hdata
    exact forall_read_mergeKeywords hb.nodup
      (fun _ _ => joined_of_mergeValue (by decide) (by decide) _ _)
      (hfitsA.maximum n hdata) (hfitsB.maximum n hdata)
  · intro s hdata
    exact forall_read_mergeKeywords hb.nodup
      (fun _ _ => joined_of_mergeValue (by decide) (by decide) _ _)
      (hfitsA.minLength s hdata) (hfitsB.minLength s hdata)
  · intro s hdata pattern hpattern
    rw [get?_mergeKeywords hb.nodup, joined_of_last rfl] at hpattern
    cases hv : Entries.get? "pattern" b with
    | none =>
      rw [hv] at hpattern
      exact hfitsA.pattern s hdata pattern hpattern
    | some v =>
      rw [hv] at hpattern
      refine hfitsB.pattern s hdata pattern ?_
      rw [hv]
      exact hpattern

theorem isObj_of_get?_properties {name : String} {schema : Json}
    (h : Entries.get? name (properties a) = some schema) :
    ∀ v, Entries.get? "properties" a = some v → v.isObj = true := by
  intro v hv
  rw [properties, hv] at h
  cases v with
  | obj named => rfl
  | _ => cases h

/-- A merged schema refuses data at which its two sides clash. -/
theorem not_accepts_merge_of_clash [Patterns] {first second : Json} (h : Clash first second data) :
    first.KeysUnique → second.KeysUnique → Legible first → Legible second →
      ¬accepts (merge first second) data = true := by
  induction h with
  | @types a b n own other undecidedA undecidedB hown hother hwhole hcrossed =>
    intro _ huniqueB hlegibleA hlegibleB haccepts
    have hb := keysUnique_obj_iff.1 huniqueB
    have ownA := hlegibleA.keywords.1
    have ownB := hlegibleB.keywords.1
    rw [merge, accepts_iff_fits (undecidedA.merge undecidedB hb.nodup ownA ownB)] at haccepts
    have htypes := haccepts.types
    rw [types?_mergeKeywords hb.nodup ownA.type ownB.type, hown, hother] at htypes
    obtain ⟨d, hd, hadmits⟩ := htypes _ rfl
    obtain rfl := Option.some.inj hd
    exact not_admits_of_crossed hwhole hcrossed hadmits
  | @property a b fields name u v undecidedA undecidedB hu hv _ ih =>
    intro huniqueA huniqueB hlegibleA hlegibleB haccepts
    have ha := keysUnique_obj_iff.1 huniqueA
    have hb := keysUnique_obj_iff.1 huniqueB
    obtain ⟨ownA, propertyA⟩ := hlegibleA.keywords
    obtain ⟨ownB, propertyB⟩ := hlegibleB.keywords
    have hmemA := Entries.mem_of_get? hu
    have hmemB := Entries.mem_of_get? hv
    rw [merge, accepts_iff_fits (undecidedA.merge undecidedB hb.nodup ownA ownB)] at haccepts
    refine ih ((membersUnique_properties ha).get? hu) ((membersUnique_properties hb).get? hv)
      (propertyA _ hmemA) (propertyB _ hmemB) ?_
    refine haccepts.properties fields rfl (name, merge u v) (Entries.mem_of_get? ?_)
    rw [get?_properties_mergeKeywords hb (isObj_of_get?_properties hv), hu, hv, mergeOpt,
      Option.elim_some]

/-- Without a clash a merged schema accepts what both sides accept. -/
theorem accepts_merge_of_not_clash [Patterns] {second : Json} (hlegible : Legible second) :
    ∀ (first : Json) (data : Option Json), Legible first → first.KeysUnique →
      second.KeysUnique → (∀ d ∈ data, d.KeysUnique) → ¬Clash first second data →
      accepts first data = true → accepts second data = true →
      accepts (merge first second) data = true := by
  induction hlegible with
  | @other second hnot =>
    intro first data _ _ _ _ _ haccepts _
    have hmerge : merge first second = first := by
      cases second with
      | obj keywords => cases hnot
      | _ =>
        rw [merge]
        · simp
        · simp
    rwa [hmerge]
  | @obj b ownB propertyB ih =>
    intro first data hlegibleA huniqueA huniqueB hdata hclash hacceptsA hacceptsB
    cases hlegibleA with
    | other hnot =>
      have hmerge : merge first (.obj b) = .obj b := by
        cases first with
        | obj keywords => cases hnot
        | _ =>
          rw [merge]
          simp
      rwa [hmerge]
    | @obj a ownA propertyA =>
      have ha := keysUnique_obj_iff.1 huniqueA
      have hb := keysUnique_obj_iff.1 huniqueB
      rw [merge]
      by_cases hundecided : Undecided a ∧ Undecided b
      · obtain ⟨undecidedA, undecidedB⟩ := hundecided
        rw [accepts_iff_fits (undecidedA.merge undecidedB hb.nodup ownA ownB)]
        refine fits_mergeKeywords ha hb ownA ownB ?_ ?_ ((accepts_iff_fits undecidedA).1 hacceptsA)
          ((accepts_iff_fits undecidedB).1 hacceptsB)
        · rintro n own other rfl hown hother hwhole hcrossed
          exact hclash (.types undecidedA undecidedB hown hother hwhole hcrossed)
        · rintro fields name u v rfl hu hv hacceptsU hacceptsV
          have hfields := keysUnique_obj_iff.1 (hdata _ rfl)
          refine ih _ (Entries.mem_of_get? hv) u _ (propertyA _ (Entries.mem_of_get? hu))
            ((membersUnique_properties ha).get? hu) ((membersUnique_properties hb).get? hv)
            (fun d hd => hfields.get? hd) ?_ hacceptsU hacceptsV
          intro hinner
          exact hclash (.property undecidedA undecidedB hu hv hinner)
      · exact accepts_mergeKeywords_of_decided ha hb hdata ownA ownB hundecided hacceptsA hacceptsB

/-- Merging rejects what both sides accept exactly where their types clash. -/
theorem accepts_merge_iff_not_clash [Patterns] {first second : Document} {data : Option Document}
    (hfirst : Legible first) (hsecond : Legible second)
    (hacceptsFirst : accepts first (data.map Document.value) = true)
    (hacceptsSecond : accepts second (data.map Document.value) = true) :
    accepts (merge first second) (data.map Document.value) = true ↔
      ¬Clash first second (data.map Document.value) := by
  constructor
  · intro haccepts hclash
    exact not_accepts_merge_of_clash hclash first.keysUnique second.keysUnique hfirst hsecond
      haccepts
  · intro hclash
    exact accepts_merge_of_not_clash hsecond first _ hfirst first.keysUnique second.keysUnique
      (fun _ hd => Document.keysUnique_of_mem hd) hclash hacceptsFirst hacceptsSecond

/-- A count that may be fractional, and a size out of three. -/
def measureForm : Json := .obj
  [("type", .arr [.str "object", .str "null"]),
    ("properties", .obj
      [("count", .obj [("type", .arr [.str "integer", .str "number"])]),
        ("size", .obj [("enum", .arr [int 1, int 2, int 3])])])]

/-- A whole count, and a size out of two floats. -/
def wholeForm : Json := .obj
  [("properties", .obj
    [("count", .obj [("type", .str "integer")]),
      ("size", .obj [("enum", .arr
        [.num (.float (Binary64.ofInt 2)), .num (.float (Binary64.ofInt 4))])])])]

theorem legible_measureForm : Legible measureForm := by
  refine .obj ⟨?_, ?_⟩ ?_
  · intro v hv
    cases hv
    exact ⟨["object", "null"], rfl⟩
  · intro v hv
    cases hv
  · intro entry hentry
    rcases List.mem_cons.1 hentry with rfl | hentry
    · refine .obj ⟨?_, ?_⟩ ?_
      · intro v hv
        cases hv
        exact ⟨["integer", "number"], rfl⟩
      · intro v hv
        cases hv
      · intro entry hentry
        cases hentry
    · obtain rfl := List.mem_singleton.1 hentry
      refine .obj ⟨?_, ?_⟩ ?_
      · intro v hv
        cases hv
      · intro v hv
        cases hv
        rfl
      · intro entry hentry
        cases hentry

theorem legible_wholeForm : Legible wholeForm := by
  refine .obj ⟨?_, ?_⟩ ?_
  · intro v hv
    cases hv
  · intro v hv
    cases hv
  · intro entry hentry
    rcases List.mem_cons.1 hentry with rfl | hentry
    · refine .obj ⟨?_, ?_⟩ ?_
      · intro v hv
        cases hv
        exact ⟨["integer"], rfl⟩
      · intro v hv
        cases hv
      · intro entry hentry
        cases hentry
    · obtain rfl := List.mem_singleton.1 hentry
      refine .obj ⟨?_, ?_⟩ ?_
      · intro v hv
        cases hv
      · intro v hv
        cases hv
        rfl
      · intro entry hentry
        cases hentry

theorem keysUnique_measureForm : measureForm.KeysUnique := by
  simp [measureForm]

theorem keysUnique_wholeForm : wholeForm.KeysUnique := by
  simp [wholeForm]

/-- The two forms do not clash at a whole count, and the form merged of them accepts it. -/
theorem accepts_merge_measureForm :
    let data := some (.obj [("size", int 2), ("count", int 7)])
    accepts (merge measureForm wholeForm) data = true ∧ ¬Clash measureForm wholeForm data := by
  intro data
  have hdata : (Json.obj [("size", int 2), ("count", int 7)]).KeysUnique := by simp
  have haccepts : accepts (merge measureForm wholeForm) data = true := by decide +kernel
  have hmeasure : accepts measureForm data = true := by decide +kernel
  have hwhole : accepts wholeForm data = true := by decide +kernel
  exact ⟨haccepts, (@accepts_merge_iff_not_clash _ ⟨measureForm, keysUnique_measureForm⟩
    ⟨wholeForm, keysUnique_wholeForm⟩ (some ⟨_, hdata⟩) legible_measureForm legible_wholeForm
    hmeasure hwhole).1 haccepts⟩

/-- A `number` and an `integer` accept `1`, merged they accept nothing. -/
theorem merge_refuses_whole_number :
    let number : Json := .obj [("type", .str "number")]
    let integer : Json := .obj [("type", .str "integer")]
    Legible number ∧ Legible integer ∧ number.KeysUnique ∧ integer.KeysUnique ∧
      accepts number (some (int 1)) = true ∧ accepts integer (some (int 1)) = true ∧
      accepts (merge number integer) (some (int 1)) = false := by
  have hlegible : ∀ name : String, Legible (.obj [("type", .str name)]) := by
    intro name
    refine .obj ⟨?_, ?_⟩ ?_
    · intro v hv
      cases hv
      exact ⟨[name], rfl⟩
    · intro v hv
      cases hv
    · intro entry hentry
      cases hentry
  have hunique : ∀ name : String, (Json.obj [("type", .str name)]).KeysUnique := by
    intro name
    simp [keysUnique_obj_iff, membersUnique_cons_iff, membersUnique_nil, Entries.keys,
      KeysUnique.str]
  exact ⟨hlegible _, hlegible _, hunique _, hunique _, by decide +kernel, by decide +kernel,
    by decide +kernel⟩

end SchemaForm.Schema
