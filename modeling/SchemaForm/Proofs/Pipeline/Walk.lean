import SchemaForm.Proofs.Pipeline.KeysUnique
import SchemaForm.Proofs.Pipeline.Selection
import SchemaForm.Proofs.Schema.Merge

/-!
# Along the properties

The three passes over a schema walk down its properties and keep their names, so what one of them
leaves at a property is what it makes of the schema there. `Schema.keywordAt?` reads a keyword at
the end of such a walk; a merged schema has it from one of the two sides.
-/

namespace SchemaForm

open Json Schema

open Selection (property? property?_cons)

/-! ### Reading a schema -/

namespace Schema

/-- The schema that property names lead to. -/
def declared? : List String → Json → Option Json
  | [], schema => some schema
  | name :: rest, schema => (schema.fields?.bind (property? name)).bind (declared? rest)

/-- The value of a keyword of the schema that property names lead to. -/
def keywordAt? (keyword : String) (segments : List String) (schema : Json) : Option Json :=
  (declared? segments schema).bind (Json.get? keyword)

theorem keywordAt?_nil (keyword : String) (fields : Fields) :
    keywordAt? keyword [] (.obj fields) = Entries.get? keyword fields := rfl

theorem keywordAt?_cons (keyword name : String) (rest : List String) (fields : Fields) :
    keywordAt? keyword (name :: rest) (.obj fields) =
      (property? name fields).bind (keywordAt? keyword rest) := by
  unfold keywordAt?
  rw [declared?]
  show ((property? name fields).bind (declared? rest)).bind _ = _
  rw [Option.bind_assoc]

theorem keywordAt?_of_not_obj {schema : Json} (h : ∀ fields, schema ≠ .obj fields)
    (keyword : String) (segments : List String) : keywordAt? keyword segments schema = none := by
  cases schema with
  | obj fields => exact absurd rfl (h fields)
  | _ => cases segments <;> rfl

theorem property?_eq_get? (name : String) (fields : Fields) :
    property? name fields = Entries.get? name (properties fields) := by
  unfold property? properties membersOf
  cases (Entries.get? "properties" fields).bind fields? <;> rfl

theorem keysUnique_property {name : String} {fields : Fields} (h : MembersUnique fields)
    {schema : Json} (hproperty : property? name fields = some schema) : schema.KeysUnique := by
  rw [property?_eq_get?] at hproperty
  exact (membersUnique_properties h).get? hproperty

/-- What is read of keywords is read of keywords that have as much. -/
theorem keywordAt?_mono {keyword : String} {segments : List String} {value : Json} {a b : Fields}
    (h : ∀ key ∈ [keyword, "properties"], ∀ v, Entries.get? key a = some v →
      Entries.get? key b = some v)
    (hread : keywordAt? keyword segments (.obj a) = some value) :
    keywordAt? keyword segments (.obj b) = some value := by
  cases segments with
  | nil => exact h keyword List.mem_cons_self value hread
  | cons name rest =>
    rw [keywordAt?_cons] at hread ⊢
    obtain ⟨schema, hproperty, hschema⟩ := Option.bind_eq_some_iff.1 hread
    obtain ⟨named, hnamed, hname⟩ := Option.bind_eq_some_iff.1 hproperty
    obtain ⟨v, hv, hfields⟩ := Option.bind_eq_some_iff.1 hnamed
    unfold property?
    rw [h "properties" (by simp) v hv, Option.bind_some, hfields, Option.bind_some, hname]
    exact hschema

theorem keywordAt?_of_eraseAll {keyword : String} {segments : List String} {value : Json}
    {keys : List String} {fields : Fields}
    (h : keywordAt? keyword segments (.obj (Entries.eraseAll keys fields)) = some value) :
    keywordAt? keyword segments (.obj fields) = some value := by
  refine keywordAt?_mono (fun key _ v hv => ?_) h
  rw [Entries.get?_eraseAll] at hv
  split at hv
  · cases hv
  · exact hv

/-- A keyword of a merged schema that the later side does not have is that of the first side. -/
theorem keywordAt?_merge {keyword : String} {value : Json} {segments : List String} {u v : Json}
    (hv : v.KeysUnique) (hnone : keywordAt? keyword segments v = none)
    (h : keywordAt? keyword segments (merge u v) = some value) :
    keywordAt? keyword segments u = some value := by
  induction segments generalizing u v with
  | nil =>
    cases v with
    | obj b =>
      cases u with
      | obj a =>
        rw [merge, keywordAt?_nil, get?_mergeKeywords (keysUnique_obj_iff.1 hv).nodup] at h
        rw [keywordAt?_nil] at hnone ⊢
        rw [hnone, joined] at h
        exact h
      | _ =>
        simp only [merge] at h
        rw [hnone] at h
        cases h
    | _ => cases u <;> exact h
  | cons name rest ih =>
    cases v with
    | obj b =>
      cases u with
      | obj a =>
        have hb := keysUnique_obj_iff.1 hv
        rw [merge, keywordAt?_cons] at h
        rw [keywordAt?_cons] at hnone ⊢
        rw [property?_eq_get?] at h hnone ⊢
        by_cases hobj : ∀ v, Entries.get? "properties" b = some v → v.isObj = true
        · rw [get?_properties_mergeKeywords hb hobj] at h
          cases hnamed : Entries.get? name (properties b) with
          | none =>
            rw [hnamed, mergeOpt] at h
            exact h
          | some v =>
            rw [hnamed, Option.bind_some] at hnone
            have hunique := (membersUnique_properties hb).get? hnamed
            cases hfirst : Entries.get? name (properties a) with
            | none =>
              rw [hfirst, hnamed] at h
              exact absurd (hnone.symm.trans h) (by simp)
            | some u =>
              rw [hfirst, hnamed] at h
              exact ih hunique hnone h
        · -- the later side has no properties to look a name up in
          obtain ⟨v, hproperties, hnot⟩ : ∃ v, Entries.get? "properties" b = some v ∧
              v.isObj = false := by simpa using hobj
          rw [properties_mergeKeywords_of_not_obj hb.nodup hproperties hnot] at h
          cases h
      | _ =>
        simp only [merge] at h
        rw [hnone] at h
        cases h
    | _ => cases u <;> exact h

end Schema

/-! ### What the passes leave -/

/-- Treats every entry, and gathers what the entries give to note, in order. -/
def Entries.collect {α γ : Type} (f : String → Json → α × List γ) :
    Fields → List (String × α) × List γ
  | [] => ([], [])
  | (key, v) :: rest =>
    ((key, (f key v).1) :: (collect f rest).1, (f key v).2 ++ (collect f rest).2)

theorem Entries.fst_collect {α γ : Type} (f : String → Json → α × List γ) (fields : Fields) :
    (collect f fields).1 = fields.map fun e => (e.1, (f e.1 e.2).1) := by
  induction fields with
  | nil => rfl
  | cons entry rest ih => rw [collect, ih, List.map_cons]

theorem Entries.collect_congr {α γ : Type} {f g : String → Json → α × List γ} {fields : Fields}
    (h : ∀ e ∈ fields, f e.1 e.2 = g e.1 e.2) : collect f fields = collect g fields := by
  induction fields with
  | nil => rfl
  | cons entry rest ih =>
    obtain ⟨key, v⟩ := entry
    have hentry : f key v = g key v := h (key, v) List.mem_cons_self
    rw [collect, collect, hentry, ih fun e he => h e (List.mem_cons_of_mem _ he)]

/-- A map over the keywords that maps the named schemas of `properties` maps each property. -/
theorem Selection.property?_map {f g : String → Json → Json}
    (hobj : ∀ inner, f "properties" (.obj inner) = .obj (inner.map fun e => (e.1, g e.1 e.2)))
    (hother : ∀ v, (∀ inner, v ≠ .obj inner) → f "properties" v = v) (name : String)
    (fields : Fields) :
    property? name (fields.map fun e => (e.1, f e.1 e.2)) =
      (property? name fields).map (g name) := by
  unfold property?
  rw [Entries.get?_map]
  cases Entries.get? "properties" fields with
  | none => rfl
  | some v =>
    rw [Option.map_some, Option.bind_some, Option.bind_some]
    cases v with
    | obj inner =>
      rw [hobj]
      exact Entries.get?_map g name inner
    | _ =>
      rw [hother _ (by simp)]
      rfl

namespace Conditional

variable (data : Option Json) (path : String)

theorem resolveNamed_eq_collect [Patterns] (properties : Fields) :
    resolveNamed properties data path = Entries.collect (fun name schema =>
      resolve schema (data.bind (get? name)) (Pointer.append path name)) properties := by
  induction properties with
  | nil => exact resolveNamed_nil data path
  | cons entry rest ih => rw [resolveNamed_cons, ih, Entries.collect]

end Conditional

namespace Dependent

variable (data : Option Json)

theorem resolveNamed_eq_map (properties : Fields) :
    resolveNamed properties data =
      properties.map fun e => (e.1, resolve e.2 (data.bind (get? e.1))) := by
  induction properties with
  | nil => rw [resolveNamed_nil]; rfl
  | cons entry rest ih => rw [resolveNamed_cons, ih]; rfl

/-- What any value of a keyword becomes. -/
def resolveEntry (keyword : String) : Json → Json
  | .obj inner => .obj (if keyword = "properties" then resolveNamed inner data else inner)
  | v => v

theorem resolveBelow_eq_map (fields : Fields) :
    resolveBelow fields data = fields.map fun e => (e.1, resolveEntry data e.1 e.2) := by
  induction fields with
  | nil => rw [resolveBelow_nil]; rfl
  | cons entry rest ih =>
    obtain ⟨keyword, v⟩ := entry
    cases v with
    | obj inner => rw [resolveBelow_cons_obj, ih]; rfl
    | _ => rw [resolveBelow_cons_of_not_obj (by simp), ih]; rfl

theorem property?_resolveBelow (name : String) (fields : Fields) :
    property? name (resolveBelow fields data) =
      (property? name fields).map fun schema => resolve schema (data.bind (get? name)) := by
  rw [resolveBelow_eq_map]
  refine Selection.property?_map (g := fun name schema =>
    resolve schema (data.bind (get? name))) ?_ ?_ name fields
  · intro inner
    rw [resolveEntry, if_pos rfl, resolveNamed_eq_map]
  · intro v hv
    cases v with
    | obj inner => exact absurd rfl (hv inner)
    | _ => rfl

theorem get?_resolveBelow_of_ne {keyword : String} (h : keyword ≠ "properties") (fields : Fields) :
    Entries.get? keyword (resolveBelow fields data) = Entries.get? keyword fields := by
  have hself : resolveEntry data keyword = id := by
    funext v
    cases v with
    | obj inner => rw [resolveEntry, if_neg h]; rfl
    | _ => rfl
  rw [resolveBelow_eq_map, Entries.get?_map, hself, Option.map_id]
  rfl

end Dependent

namespace Selection

variable (selections : Selections) (path : String)

theorem resolveNamed_eq_collect (properties : Fields) :
    resolveNamed selections properties path = Entries.collect (fun name schema =>
      resolve selections schema (Pointer.append path name)) properties := by
  induction properties with
  | nil => exact resolveNamed_nil selections path
  | cons entry rest ih => rw [resolveNamed_cons, ih, Entries.collect]

theorem resolveNamed_eq_map (properties : Fields) :
    (resolveNamed selections properties path).1 = properties.map fun e =>
      (e.1, (resolve selections e.2 (Pointer.append path e.1)).1) := by
  rw [resolveNamed_eq_collect, Entries.fst_collect]

/-- What any value of a keyword becomes. -/
def resolveEntry (keyword : String) : Json → Json
  | .obj inner => .obj (resolveValue selections keyword inner path).1
  | v => v

theorem resolveBelow_eq_map (fields : Fields) :
    (resolveBelow selections fields path).1 =
      fields.map fun e => (e.1, resolveEntry selections path e.1 e.2) := by
  induction fields with
  | nil => rw [resolveBelow_nil]; rfl
  | cons entry rest ih =>
    obtain ⟨keyword, v⟩ := entry
    cases v with
    | obj inner => rw [resolveBelow_cons_obj, ih]; rfl
    | _ => rw [resolveBelow_cons_of_not_obj (by simp), ih]; rfl

theorem property?_resolveBelow (name : String) (fields : Fields) :
    property? name (resolveBelow selections fields path).1 =
      (property? name fields).map fun schema =>
        (resolve selections schema (Pointer.append path name)).1 := by
  rw [resolveBelow_eq_map]
  refine property?_map (g := fun name schema =>
    (resolve selections schema (Pointer.append path name)).1) ?_ ?_ name fields
  · intro inner
    rw [resolveEntry, resolveValue, if_pos rfl, resolveNamed_eq_map]
  · intro v hv
    cases v with
    | obj inner => exact absurd rfl (hv inner)
    | _ => rfl

theorem get?_resolveBelow_of_ne {keyword : String} (h : keyword ≠ "properties") (fields : Fields) :
    Entries.get? keyword (resolveBelow selections fields path).1 =
      Entries.get? keyword fields := by
  have hself : resolveEntry selections path keyword = id := by
    funext v
    cases v with
    | obj inner => rw [resolveEntry, resolveValue, if_neg h]; rfl
    | _ => rfl
  rw [resolveBelow_eq_map, Entries.get?_map, hself, Option.map_id]
  rfl

end Selection
end SchemaForm
