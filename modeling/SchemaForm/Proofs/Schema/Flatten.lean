import SchemaForm.Proofs.Schema.KeysUnique

/-!
# Flattened schemas

Merging joins schemas at the node and at every place below that both sides describe, but it puts no
keyword anywhere that neither side has there. So merging two schemas without `allOf` at any place
makes a schema without one, and since the parts of an `allOf` are flattened before they are folded
in, nothing is left to fold. Main statement: a flattened schema has no `allOf` at any place that a
traversal visits, and flattening it again changes nothing.
-/

namespace SchemaForm.Schema

open Json

/-! ### Schemas without `allOf` -/

/-- No schema object that is reached has an `allOf`, the schema itself included. -/
def Flat (schema : Json) : Prop :=
  ∀ passed place keywords, Reached schema passed place keywords →
    Entries.get? "allOf" keywords = none

/-- The schemas in the value of a keyword are flat. -/
def FlatUnder (keyword : String) (v : Json) : Prop :=
  ∀ inner ∈ held (holder? keyword) v, Flat inner.2

variable {keyword : String} {keywords acc : Fields}

theorem flat_of_not_obj {v : Json} (h : v.isObj = false) : Flat v := by
  intro passed place keywords hreached
  cases hreached <;> cases h

theorem flat_obj_iff : Flat (.obj keywords) ↔
    Entries.get? "allOf" keywords = none ∧ ∀ e ∈ below keywords, Flat e.2 := by
  constructor
  · intro h
    refine ⟨h _ _ _ (.here keywords), fun e he passed place inner hreached => ?_⟩
    exact h _ _ _ (.step he hreached)
  · rintro ⟨hnone, hbelow⟩ passed place inner hreached
    cases hreached with
    | here => exact hnone
    | step he hreached => exact hbelow _ he _ _ _ hreached

theorem flat_obj_nil : Flat (.obj []) :=
  flat_obj_iff.2 ⟨rfl, fun _ he => by cases he⟩

theorem flat_obj_cons_iff {v : Json} {rest : Fields} : Flat (.obj ((keyword, v) :: rest)) ↔
    keyword ≠ "allOf" ∧ FlatUnder keyword v ∧ Flat (.obj rest) := by
  have hbelow : (∀ e ∈ below ((keyword, v) :: rest), Flat e.2) ↔
      FlatUnder keyword v ∧ ∀ e ∈ below rest, Flat e.2 := by
    rw [below, List.flatMap_cons, ← below, List.forall_mem_append, List.forall_mem_map]
    rfl
  rw [flat_obj_iff, flat_obj_iff, hbelow, Entries.get?_cons]
  by_cases hkeyword : keyword = "allOf"
  · simp [hkeyword]
  · simp [hkeyword, and_left_comm]

theorem flatUnder_of_get? {v : Json} (h : Flat (.obj keywords))
    (hv : Entries.get? keyword keywords = some v) : FlatUnder keyword v := by
  intro inner hinner
  have hflat := (flat_obj_iff.1 h).2 _ (mem_below_of_held (Entries.mem_of_get? hv) hinner)
  exact hflat

theorem flat_obj_insert {v : Json} (h : Flat (.obj acc)) (hkeyword : keyword ≠ "allOf")
    (hv : FlatUnder keyword v) : Flat (.obj (Entries.insert keyword v acc)) := by
  induction acc with
  | nil => exact flat_obj_cons_iff.2 ⟨hkeyword, hv, flat_obj_nil⟩
  | cons entry rest ih =>
    obtain ⟨k, w⟩ := entry
    obtain ⟨hk, hw, hrest⟩ := flat_obj_cons_iff.1 h
    rw [Entries.insert]
    split
    · exact flat_obj_cons_iff.2 ⟨hkeyword, hv, hrest⟩
    · exact flat_obj_cons_iff.2 ⟨hk, hw, ih hrest⟩

/-! ### Merging -/

/-- Keywords whose values are merged name by name hold schemas by name. -/
theorem holder_of_schemasByName (h : mergeRule keyword = .schemasByName) :
    holder? keyword = some .byName := by
  unfold mergeRule at h
  split_ifs at h with _ hkeyword
  rcases hkeyword with rfl | rfl <;> rfl

/-- Keywords whose values are merged as schemas hold a single one. -/
theorem holder_of_schema (h : mergeRule keyword = .schema) : holder? keyword = some .single := by
  unfold mergeRule at h
  split_ifs at h with _ _ _ _ _ hkeyword
  rcases hkeyword with rfl | rfl <;> rfl

/-- A keyword whose values hold schemas has no rule that makes a new value of two scalars or
lists. -/
theorem mergeRule_of_holder {holder : Holder} (h : holder? keyword = some holder) :
    mergeRule keyword = .schemasByName ∨ mergeRule keyword = .schema ∨
      mergeRule keyword = .first ∨ mergeRule keyword = .last := by
  unfold holder? at h
  simp only [List.contains_cons, List.contains_nil, Bool.or_false, Bool.or_eq_true,
    beq_iff_eq] at h
  split at h
  · next hkeyword => rcases hkeyword with rfl | rfl | rfl | rfl <;> decide
  · split at h
    · next hkeyword => rcases hkeyword with rfl | rfl | rfl | rfl | rfl | rfl | rfl <;> decide
    · split at h
      · next hkeyword => rcases hkeyword with rfl | rfl | rfl | rfl <;> decide
      · cases h

theorem flatUnder_of_not_holder (h : holder? keyword = none) (v : Json) : FlatUnder keyword v := by
  intro inner hinner
  rw [h] at hinner
  cases v <;> cases hinner

theorem flatUnder_byName_iff (h : holder? keyword = some .byName) {named : Fields} :
    FlatUnder keyword (.obj named) ↔ ∀ entry ∈ named, Flat entry.2 := by
  rw [FlatUnder, h, held, List.forall_mem_map]

theorem flatUnder_single_iff (h : holder? keyword = some .single) :
    FlatUnder keyword (.obj keywords) ↔ Flat (.obj keywords) := by
  rw [FlatUnder, h, held, List.forall_mem_singleton]

theorem flat_of_mem_membersOf (h : holder? keyword = some .byName) {a : Option Json}
    (ha : ∀ v ∈ a, FlatUnder keyword v) : ∀ entry ∈ membersOf a, Flat entry.2 := by
  intro entry hentry
  cases a with
  | none => cases hentry
  | some v =>
    cases v with
    | obj named => exact (flatUnder_byName_iff h).1 (ha _ rfl) entry hentry
    | _ => cases hentry

/-- Where two values are not merged as schemas, the joined one is the later one or holds no
schemas. -/
theorem flatUnder_mergeValue {a : Option Json} {b v : Json} (hb : FlatUnder keyword b)
    (h : mergeValue (mergeRule keyword) a b = some v) : FlatUnder keyword v := by
  cases hholder : holder? keyword with
  | none => exact flatUnder_of_not_holder hholder v
  | some holder =>
    have hv : v = b := by
      rcases mergeRule_of_holder hholder with hrule | hrule | hrule | hrule
      all_goals rw [hrule, mergeValue] at h
      case inr.inr.inl =>
        split at h
        · cases h
        · exact (Option.some.inj h).symm
      all_goals exact (Option.some.inj h).symm
    exact hv ▸ hb

/-- Merging brings no `allOf`, neither to the node nor to a place that it makes by merging what
stands below. -/
theorem flat_merge :
    (∀ a b : Json, Flat a → Flat b → Flat (merge a b)) ∧
    (∀ (acc : Fields) (keywords : List (String × Json)), Flat (.obj acc) →
      Flat (.obj keywords) → Flat (.obj (mergeKeywords acc keywords))) ∧
    (∀ (rule : MergeRule) (a : Option Json) (b : Json), ∀ keyword, mergeRule keyword = rule →
      (∀ v ∈ a, FlatUnder keyword v) → FlatUnder keyword b →
      ∀ v ∈ mergeJoined rule a b, FlatUnder keyword v) ∧
    (∀ (acc : Fields) (named : List (String × Json)), (∀ entry ∈ acc, Flat entry.2) →
      (∀ entry ∈ named, Flat entry.2) → ∀ entry ∈ mergeNamed acc named, Flat entry.2) := by
  apply merge.mutual_induct
    (fun a b => Flat a → Flat b → Flat (merge a b))
    (fun acc keywords => Flat (.obj acc) → Flat (.obj keywords) →
      Flat (.obj (mergeKeywords acc keywords)))
    (fun rule a b => ∀ keyword, mergeRule keyword = rule → (∀ v ∈ a, FlatUnder keyword v) →
      FlatUnder keyword b → ∀ v ∈ mergeJoined rule a b, FlatUnder keyword v)
    (fun acc named => (∀ entry ∈ acc, Flat entry.2) → (∀ entry ∈ named, Flat entry.2) →
      ∀ entry ∈ mergeNamed acc named, Flat entry.2)
  case case1 =>
    intro a b ih ha hb
    rw [merge]
    exact ih ha hb
  case case2 =>
    intro a b hnot ha hb
    rw [merge]
    · exact hb
    · exact hnot
  case case3 =>
    intro b a hboth hnot ha hb
    rw [merge]
    · exact ha
    · exact hnot
    · exact hboth
  case case4 =>
    intro named a ih keyword hrule ha hb v hv
    have hholder := holder_of_schemasByName hrule
    rw [mergeJoined] at hv
    cases hv
    refine (flatUnder_byName_iff hholder).2 (ih (flat_of_mem_membersOf hholder ha) ?_)
    exact (flatUnder_byName_iff hholder).1 hb
  case case5 =>
    intro keywords a ih keyword hrule ha hb v hv
    have hholder := holder_of_schema hrule
    rw [mergeJoined] at hv
    cases hv
    refine (flatUnder_single_iff hholder).2 (ih ?_ ?_)
    · exact (flatUnder_single_iff hholder).1 (ha _ rfl)
    · exact (flatUnder_single_iff hholder).1 hb
  case case6 =>
    intro keywords rule a hnamed hschema keyword hrule ha hb v hv
    rw [mergeJoined] at hv
    · exact flatUnder_mergeValue hb (hrule ▸ hv)
    · exact hnamed
    · exact hschema
  case case7 =>
    intro b rule a hnot keyword hrule ha hb v hv
    rw [mergeJoined] at hv
    · exact flatUnder_mergeValue hb (hrule ▸ hv)
    · exact hnot
  case case8 =>
    intro acc hacc _
    exact hacc
  case case9 =>
    intro acc keyword b rest ihJoined ihRest hacc hkeywords
    obtain ⟨hkeyword, hb, hrest⟩ := flat_obj_cons_iff.1 hkeywords
    rw [mergeKeywords]
    refine ihRest ?_ hrest
    split
    · next v hv =>
      refine flat_obj_insert hacc hkeyword (ihJoined keyword rfl ?_ hb v hv)
      exact fun u hu => flatUnder_of_get? hacc hu
    · exact hacc
  case case10 =>
    intro acc hacc _
    exact hacc
  case case11 =>
    intro acc name b rest joined ihMerge ihRest hacc hnamed
    have hb : Flat b := hnamed (name, b) List.mem_cons_self
    rw [mergeNamed]
    refine ihRest (fun entry hentry => ?_) fun entry hentry =>
      hnamed entry (List.mem_cons_of_mem _ hentry)
    rcases Entries.mem_insert hentry with rfl | hentry
    · show Flat (Option.elim (Entries.get? name acc) b fun a => merge a b)
      cases hfound : Entries.get? name acc with
      | none => exact hb
      | some a => exact ihMerge a (hacc _ (Entries.mem_of_get? hfound)) hb
    · exact hacc entry hentry

/-! ### Flattening -/

theorem flat_foldl_absorb {parts : List Json} (hacc : Flat (.obj acc))
    (hparts : ∀ part ∈ parts, Flat part) : Flat (.obj (parts.foldl absorb acc)) := by
  induction parts generalizing acc with
  | nil => exact hacc
  | cons part rest ih =>
    rw [List.foldl_cons]
    refine ih ?_ fun v hv => hparts v (List.mem_cons_of_mem _ hv)
    rw [← merge_obj]
    exact flat_merge.1 _ _ hacc (hparts part List.mem_cons_self)

/-- Folding flat parts into a node with flat schemas below makes it flat. -/
theorem flat_absorbParts (hkeys : (Entries.keys keywords).Nodup)
    (hbelow : ∀ e ∈ below keywords, Flat e.2) : Flat (absorbParts keywords) := by
  have hrest : Flat (.obj (Entries.swapErase "allOf" keywords)) := by
    refine flat_obj_iff.2 ⟨?_, fun e he => ?_⟩
    · rw [Entries.get?_swapErase hkeys, if_pos rfl]
    · obtain ⟨entry, hentry, inner, hinner, rfl⟩ := mem_below_iff.1 he
      exact hbelow _ (mem_below_of_held (Entries.mem_of_mem_swapErase hentry) hinner)
  unfold absorbParts
  split
  · next parts hparts =>
    refine flat_foldl_absorb hrest fun part hpart => ?_
    obtain ⟨index, hindex, rfl⟩ := List.getElem_of_mem hpart
    have hheld : ("/" ++ toString index, parts[index]) ∈ held (holder? "allOf") (.arr parts) :=
      List.mem_map.2 ⟨(parts[index], index),
        List.mk_mem_zipIdx_iff_getElem?.2 (List.getElem?_eq_getElem hindex), rfl⟩
    exact hbelow _ (mem_below_of_held (Entries.mem_of_get? hparts) hheld)
  · exact hrest

theorem flatten_obj (keywords : Fields) :
    flatten (.obj keywords) = absorbParts (mapSchemas flatten keywords) := by
  rw [flatten, bottomUp, bottomUpKeywords_eq_mapSchemas]
  rfl

theorem flat_flatten {schema : Json} (h : schema.KeysUnique) : Flat (flatten schema) := by
  induction schema using induct_below with
  | leaf v hv =>
    rw [flatten, bottomUp_of_not_obj hv]
    exact flat_of_not_obj hv
  | object keywords ih =>
    have hkeywords := keysUnique_obj_iff.1 h
    rw [flatten_obj]
    refine flat_absorbParts ?_ fun e he => ?_
    · rw [mapSchemas, Entries.keys_map]
      exact hkeywords.nodup
    · obtain ⟨original, horiginal, rfl⟩ := exists_of_mem_below_mapSchemas he
      exact ih original horiginal (keysUnique_of_mem_below hkeywords horiginal)

theorem flatten_of_flat {schema : Json} (h : Flat schema) : flatten schema = schema := by
  induction schema using induct_below with
  | leaf v hv => exact bottomUp_of_not_obj hv _
  | object keywords ih =>
    obtain ⟨hnone, hbelow⟩ := flat_obj_iff.1 h
    have hself : mapSchemas flatten keywords = keywords :=
      mapSchemas_eq_self fun e he => ih e he (hbelow e he)
    rw [flatten_obj, hself, absorbParts, hnone, Entries.swapErase_of_get?_eq_none hnone]

/-- Flattening changes exactly the schemas that have an `allOf` somewhere. -/
theorem flatten_eq_self_iff {schema : Json} (h : schema.KeysUnique) :
    flatten schema = schema ↔ Flat schema :=
  ⟨fun hself => hself ▸ flat_flatten h, flatten_of_flat⟩

/-- Flattening is complete: at no place that a traversal visits is an `allOf` left, and flattening
again changes nothing, not even the order of keywords. -/
theorem flatten_complete (schema : Document) :
    (∀ visit ∈ traverse (flatten schema), visit.2.get? "allOf" = none) ∧
      flatten (flatten schema) = flatten schema := by
  have hflat : Flat (flatten schema) := flat_flatten schema.keysUnique
  refine ⟨fun visit hvisit => ?_,
    (flatten_eq_self_iff (keysUnique_flatten schema.keysUnique)).2 hflat⟩
  obtain ⟨passed, place, keywords, hreached, rfl⟩ := mem_traverse_iff.1 hvisit
  exact hflat _ _ _ hreached

/-- Parts inside parts, two of which describe the items of one property, one with parts of its
own. -/
def layeredParts : Json :=
  .obj [("allOf", .arr
      [.obj [("allOf", .arr [.obj [("required", .arr [.str "tags"])]]),
        ("properties", .obj [("tags", .obj [("items", .obj [("type", .str "string")])])])],
      .obj [("properties", .obj [("tags", .obj [("items", .obj
        [("allOf", .arr [.obj [("format", .str "email")]])])])])]]),
    ("not", .obj [("allOf", .bool true)])]

theorem flatten_complete_layeredParts :
    layeredParts.KeysUnique ∧
      flatten layeredParts = .obj [("not", .obj []),
        ("properties", .obj [("tags", .obj [("items", .obj
          [("type", .str "string"), ("format", .str "email")])])]),
        ("required", .arr [.str "tags"])] ∧
      (∀ visit ∈ traverse (flatten layeredParts), visit.2.get? "allOf" = none) ∧
      flatten (flatten layeredParts) = flatten layeredParts := by
  have hunique : layeredParts.KeysUnique := by simp [layeredParts]
  exact ⟨hunique, by rfl, flatten_complete ⟨layeredParts, hunique⟩⟩

end SchemaForm.Schema
