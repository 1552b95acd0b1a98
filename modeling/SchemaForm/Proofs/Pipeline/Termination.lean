import SchemaForm.Proofs.Pipeline.KeysUnique
import SchemaForm.Proofs.Pipeline.Selection
import SchemaForm.Proofs.Pipeline.Tree
import SchemaForm.Proofs.Pipeline.Walk
import SchemaForm.Proofs.Recursion
import SchemaForm.Regex.Engine

/-!
# The recursions on merged schemas end

The three passes that resolve a schema and the building of the tree go on with merged schemas,
which are no parts of the schemas that they were called with. Each is written here as one round of
its work, with a function for the recursive calls. A pass calls itself on smaller schemas alone. The
tree does so too, except at an element of the data for which the schema has no description: there it
goes on with the schema that says nothing, and it is the data that get smaller.
-/

namespace SchemaForm

open Json Schema Recursion

/-! ### Smaller schemas -/

/-- What stands under a keyword is smaller than the schema. -/
theorem size_lt_of_mem {fields : Fields} {e : String × Json} (h : e ∈ fields) :
    e.2.size < (Json.obj fields).size := by
  have := size_le_sizeEntries h
  rw [size]
  omega

/-- The schema of a call is smaller than that of another. -/
def Smaller {δ : Type} (call other : Json × δ) : Prop := call.1.size < other.1.size

/-! ### Conditionals -/

namespace Conditional

/-- The recursive calls: a schema with the data and the path of its field. -/
abbrev Call := Json × Option Json × String

/-- One round on the value of a keyword. -/
def roundValue (call : Call → Json × List Dependency) (data : Option Json) (path : String)
    (keyword : String) : Json → Json × List Dependency
  | .obj inner =>
    if keyword = "properties" then
      let found := Entries.collect (fun name schema =>
        call (schema, data.bind (get? name), Pointer.append path name)) inner
      (.obj found.1, found.2)
    else if keyword = "items" ∧ !data.any isArr then
      call (.obj inner, none, path)
    else
      (.obj inner, [])
  | v => (v, [])

/-- One round on keywords without a conditional. -/
def roundBelow (call : Call → Json × List Dependency) (fields : Fields) (data : Option Json)
    (path : String) : Json × List Dependency :=
  let found := Entries.collect (roundValue call data path) fields
  (.obj found.1, found.2)

/-- One round of resolving conditionals. -/
def round [Patterns] (call : Call → Json × List Dependency) : Call → Json × List Dependency
  | (.obj fields, data, path) =>
    match Entries.get? "if" fields with
    | none => roundBelow call fields data path
    | some condition =>
      let rest := Entries.eraseAll keywords fields
      let found :=
        match Entries.get? (branchKeyword condition data) fields with
        | none => roundBelow call rest data path
        | some branch => call (.obj (absorb rest branch), data, path)
      (found.1, dependencies condition path ++ found.2)
  | (schema, _, _) => (schema, [])

/-- The pass as a function of its calls. -/
def resolveCall [Patterns] (call : Call) :
    Json × List Dependency := resolve call.1 call.2.1 call.2.2

theorem resolveBelow_eq_collect [Patterns] (fields : Fields) (data : Option Json) (path : String) :
    resolveBelow fields data path =
      Entries.collect (roundValue resolveCall data path) fields := by
  induction fields with
  | nil => exact resolveBelow_nil data path
  | cons entry rest ih =>
    obtain ⟨keyword, v⟩ := entry
    cases v with
    | obj inner =>
      have hvalue : resolveValue keyword inner data path =
          roundValue resolveCall data path keyword (.obj inner) := by
        rw [resolveValue, resolveNamed_eq_collect]
        rfl
      rw [resolveBelow_cons_obj, ih, hvalue, Entries.collect]
    | _ =>
      rw [resolveBelow_cons_of_not_obj (by simp), ih, Entries.collect]
      rfl

theorem round_eq [Patterns] : round resolveCall = resolveCall := by
  funext call
  obtain ⟨schema, data, path⟩ := call
  show _ = resolve schema data path
  cases schema with
  | obj fields =>
    cases hif : Entries.get? "if" fields with
    | none =>
      rw [resolve_of_if_none hif, resolveBelow_eq_collect, round, hif]
      rfl
    | some condition =>
      cases hbranch : Entries.get? (branchKeyword condition data) fields with
      | none =>
        rw [resolve_of_branch_none hif hbranch, resolveBelow_eq_collect, round, hif]
        dsimp only
        rw [hbranch]
        rfl
      | some branch =>
        rw [resolve_of_branch hif hbranch, round, hif]
        dsimp only
        rw [hbranch]
        rfl
  | _ =>
    rw [resolve_of_not_obj (by simp)]
    rfl

variable {f g : Call → Json × List Dependency} {bound : Nat}

theorem roundValue_congr (h : ∀ call : Call, call.1.size < bound → f call = g call) {v : Json}
    (hv : v.size < bound) (data : Option Json) (path keyword : String) :
    roundValue f data path keyword v = roundValue g data path keyword v := by
  cases v with
  | obj inner =>
    have hnamed : Entries.collect (fun name schema =>
          f (schema, data.bind (get? name), Pointer.append path name)) inner =
        Entries.collect (fun name schema =>
          g (schema, data.bind (get? name), Pointer.append path name)) inner :=
      Entries.collect_congr fun e he => h _ (Nat.lt_trans (size_lt_of_mem he) hv)
    rw [roundValue, roundValue, hnamed, h _ hv]
  | _ => rfl

theorem roundBelow_congr (h : ∀ call : Call, call.1.size < bound → f call = g call)
    {fields : Fields} (hfields : (Json.obj fields).size ≤ bound) (data : Option Json)
    (path : String) : roundBelow f fields data path = roundBelow g fields data path := by
  have hcollect : Entries.collect (roundValue f data path) fields =
      Entries.collect (roundValue g data path) fields :=
    Entries.collect_congr fun e he =>
      roundValue_congr h (Nat.lt_of_lt_of_le (size_lt_of_mem he) hfields) data path e.1
  rw [roundBelow, roundBelow, hcollect]

theorem consults_round [Patterns] : Consults Smaller round := by
  intro f g call h
  obtain ⟨schema, data, path⟩ := call
  cases schema with
  | obj fields =>
    have hcalls : ∀ call : Call, call.1.size < (Json.obj fields).size → f call = g call := h
    cases hif : Entries.get? "if" fields with
    | none =>
      rw [round, round, hif]
      exact roundBelow_congr hcalls (Nat.le_refl _) data path
    | some condition =>
      have hrest : (Json.obj (Entries.eraseAll keywords fields)).size ≤ (Json.obj fields).size := by
        have := sizeEntries_eraseAll_add_le (show "if" ∈ keywords by decide) fields
        simp only [size]
        omega
      rw [round, round, hif]
      dsimp only
      cases hbranch : Entries.get? (branchKeyword condition data) fields with
      | none =>
        dsimp only
        rw [roundBelow_congr hcalls hrest data path]
      | some branch =>
        dsimp only
        rw [h]
        have := size_absorb_branch_lt hif hbranch
        simp only [Smaller, size]
        omega
  | _ => rfl

/-- Resolving conditionals ends. -/
theorem endsBy_resolve [Patterns] : EndsBy Smaller (fun call => call.1.size) round resolveCall :=
  .of_consults round_eq (fun _ _ h => h) consults_round

end Conditional

/-! ### Dependents -/

namespace Dependent

/-- The recursive calls: a schema with the data of its field. -/
abbrev Call := Json × Option Json

/-- One round on the value of a keyword. -/
def roundValue (call : Call → Json) (data : Option Json) (keyword : String) : Json → Json
  | .obj inner =>
    .obj <|
      if keyword = "properties" then
        inner.map fun e => (e.1, call (e.2, data.bind (get? e.1)))
      else
        inner
  | v => v

/-- One round of resolving dependents. -/
def round (call : Call → Json) : Call → Json
  | (.obj fields, data) =>
    let keywords :=
      match data.bind fields? with
      | some members => activate members fields
      | none => fields
    .obj (keywords.map fun e => (e.1, roundValue call data e.1 e.2))
  | (schema, _) => schema

/-- The pass as a function of its calls. -/
def resolveCall (call : Call) : Json := resolve call.1 call.2

theorem resolveBelow_eq_round (fields : Fields) (data : Option Json) :
    resolveBelow fields data = fields.map fun e => (e.1, roundValue resolveCall data e.1 e.2) := by
  rw [resolveBelow_eq_map]
  refine List.map_congr_left fun e _ => ?_
  obtain ⟨keyword, v⟩ := e
  cases v with
  | obj inner =>
    rw [resolveEntry, resolveNamed_eq_map]
    rfl
  | _ => rfl

theorem round_eq : round resolveCall = resolveCall := by
  funext call
  obtain ⟨schema, data⟩ := call
  show _ = resolve schema data
  cases schema with
  | obj fields =>
    cases hmembers : data.bind fields? with
    | some members =>
      rw [resolve_of_members hmembers, resolveBelow_eq_round, round, hmembers]
    | none => rw [resolve_of_no_members hmembers, resolveBelow_eq_round, round, hmembers]
  | _ =>
    rw [resolve_of_not_obj (by simp)]
    rfl

variable {f g : Call → Json} {bound : Nat}

theorem roundValue_congr (h : ∀ call : Call, call.1.size < bound → f call = g call) {v : Json}
    (hv : v.size < bound) (data : Option Json) (keyword : String) :
    roundValue f data keyword v = roundValue g data keyword v := by
  cases v with
  | obj inner =>
    have hnamed : (inner.map fun e => (e.1, f (e.2, data.bind (get? e.1)))) =
        inner.map fun e => (e.1, g (e.2, data.bind (get? e.1))) :=
      List.map_congr_left fun e he => by rw [h _ (Nat.lt_trans (size_lt_of_mem he) hv)]
    rw [roundValue, roundValue, hnamed]
  | _ => rfl

theorem consults_round : Consults Smaller round := by
  intro f g call h
  obtain ⟨schema, data⟩ := call
  cases schema with
  | obj fields =>
    have hcalls : ∀ call : Call, call.1.size < (Json.obj fields).size → f call = g call := h
    rw [round, round]
    refine congrArg Json.obj (List.map_congr_left fun e he => ?_)
    rw [roundValue_congr hcalls (Nat.lt_of_lt_of_le (size_lt_of_mem he) ?_)]
    cases data.bind fields? with
    | none => exact Nat.le_refl _
    | some members =>
      have := sizeEntries_activate_le members fields
      simp only [size]
      omega
  | _ => rfl

/-- Resolving dependents ends. -/
theorem endsBy_resolve : EndsBy Smaller (fun call => call.1.size) round resolveCall :=
  .of_consults round_eq (fun _ _ h => h) consults_round

end Dependent

/-! ### Selections -/

namespace Selection

/-- The recursive calls: a schema with the path of its field. -/
abbrev Call := Json × String

/-- One round on the value of a keyword. -/
def roundValue (call : Call → Json × List Pinned) (path keyword : String) :
    Json → Json × List Pinned
  | .obj inner =>
    if keyword = "properties" then
      let found := Entries.collect (fun name schema => call (schema, Pointer.append path name)) inner
      (.obj found.1, found.2)
    else
      (.obj inner, [])
  | v => (v, [])

/-- One round of putting chosen branches in place. -/
def round (selections : Selections) (call : Call → Json × List Pinned) :
    Call → Json × List Pinned
  | (.obj fields, path) =>
    let chosen := choose selections path fields
    let found := Entries.collect (roundValue call path) chosen.1
    (.obj found.1, chosen.2 ++ found.2)
  | (schema, _) => (schema, [])

/-- The pass as a function of its calls. -/
def resolveCall (selections : Selections) (call : Call) : Json × List Pinned :=
  resolve selections call.1 call.2

theorem resolveBelow_eq_collect (selections : Selections) (fields : Fields) (path : String) :
    resolveBelow selections fields path =
      Entries.collect (roundValue (resolveCall selections) path) fields := by
  induction fields with
  | nil => exact resolveBelow_nil selections path
  | cons entry rest ih =>
    obtain ⟨keyword, v⟩ := entry
    cases v with
    | obj inner =>
      have hvalue : roundValue (resolveCall selections) path keyword (.obj inner) =
          (.obj (resolveValue selections keyword inner path).1,
            (resolveValue selections keyword inner path).2) := by
        rw [resolveValue, roundValue]
        split
        · rw [resolveNamed_eq_collect]
          rfl
        · rfl
      rw [resolveBelow_cons_obj, ih, Entries.collect, hvalue]
    | _ =>
      rw [resolveBelow_cons_of_not_obj (by simp), ih, Entries.collect]
      rfl

theorem round_eq (selections : Selections) :
    round selections (resolveCall selections) = resolveCall selections := by
  funext call
  obtain ⟨schema, path⟩ := call
  show _ = resolve selections schema path
  cases schema with
  | obj fields =>
    rw [resolve_obj, resolveBelow_eq_collect]
    rfl
  | _ =>
    rw [resolve_of_not_obj (by simp)]
    rfl

variable {f g : Call → Json × List Pinned} {bound : Nat}

theorem roundValue_congr (h : ∀ call : Call, call.1.size < bound → f call = g call) {v : Json}
    (hv : v.size < bound) (path keyword : String) :
    roundValue f path keyword v = roundValue g path keyword v := by
  cases v with
  | obj inner =>
    have hnamed : Entries.collect (fun name schema => f (schema, Pointer.append path name)) inner =
        Entries.collect (fun name schema => g (schema, Pointer.append path name)) inner :=
      Entries.collect_congr fun e he => h _ (Nat.lt_trans (size_lt_of_mem he) hv)
    rw [roundValue, roundValue, hnamed]
  | _ => rfl

theorem consults_round (selections : Selections) : Consults Smaller (round selections) := by
  intro f g call h
  obtain ⟨schema, path⟩ := call
  cases schema with
  | obj fields =>
    have hcalls : ∀ call : Call, call.1.size < (Json.obj fields).size → f call = g call := h
    have hchosen : (Json.obj (choose selections path fields).1).size ≤ (Json.obj fields).size := by
      have := sizeEntries_choose_le selections path fields
      simp only [size]
      omega
    have hcollect : Entries.collect (roundValue f path) (choose selections path fields).1 =
        Entries.collect (roundValue g path) (choose selections path fields).1 :=
      Entries.collect_congr fun e he =>
        roundValue_congr hcalls (Nat.lt_of_lt_of_le (size_lt_of_mem he) hchosen) path e.1
    rw [round, round, hcollect]
  | _ => rfl

/-- Putting chosen branches in place ends. -/
theorem endsBy_resolve (selections : Selections) :
    EndsBy Smaller (fun call => call.1.size) (round selections) (resolveCall selections) :=
  .of_consults (round_eq selections) (fun _ _ h => h) (consults_round selections)

end Selection

/-! ### The field tree -/

namespace FieldTree

/-- The recursive calls: a schema with the data and the path of its field. -/
abbrev Call := Json × Option Json × String

/-- One round on a child: its field, behind what lies below it. -/
def roundChild [Patterns] (pinned : SortedMap Combinator)
    (call : Call → List String × List FieldNode)
    (schema : Json) (data : Option Json) (path : String) (origin : Origin) (required : Bool) :
    List String × List FieldNode :=
  let found := call (schema, data, path)
  ([path], found.2 ++ [node pinned schema data path origin required found.1])

/-- One round on properties. -/
def roundProperties [Patterns] (pinned : SortedMap Combinator)
    (call : Call → List String × List FieldNode)
    (required : List String) (data : Option Json) (path : String) :
    List (String × Json) → List String × List FieldNode
  | [] => ([], [])
  | (name, schema) :: rest =>
    join
      (roundChild pinned call schema (data.bind (get? name)) (Pointer.append path name) .property
        (required.contains name))
      (roundProperties pinned call required data path rest)

/-- One round on elements. -/
def roundItems [Patterns] (pinned : SortedMap Combinator)
    (call : Call → List String × List FieldNode) (last : Json) (path : String) :
    List Json → List Json → Nat → List String × List FieldNode
  | _, [], _ => ([], [])
  | schemas, item :: items, index =>
    join
      (roundChild pinned call (schemas.headD last) (some item) (Pointer.appendIndex path index)
        (elementOrigin schemas) false)
      (roundItems pinned call last path schemas.tail items (index + 1))

/-- One round on the properties of a schema that offers no branches. -/
def roundObject [Patterns] (pinned : SortedMap Combinator)
    (call : Call → List String × List FieldNode)
    (schema : Json) (data : Option Json) (path : String) : List String × List FieldNode :=
  if (fieldType schema data).includes .object then
    match schema.getFields? "properties" with
    | some properties => roundProperties pinned call (requiredNames schema) data path properties
    | none => ([], [])
  else
    ([], [])

/-- One round on the elements under a schema that offers no branches. -/
def roundArray [Patterns] (pinned : SortedMap Combinator)
    (call : Call → List String × List FieldNode)
    (schema : Json) (data : Option Json) (path : String) : List String × List FieldNode :=
  if (fieldType schema data).includes .array then
    match data.bind items? with
    | some items =>
      roundItems pinned call (itemSchema schema) path ((schema.getItems? "prefixItems").getD [])
        items 0
    | none => ([], [])
  else
    ([], [])

/-- One round of building the tree. -/
def round [Patterns] (pinned : SortedMap Combinator) (call : Call → List String × List FieldNode) :
    Call → List String × List FieldNode
  | (schema, data, path) =>
    match branches? (membersOf (some schema)) with
    | some (_, options) =>
      match fittingBranch? options data with
      | some option =>
        call (.obj (absorb (Entries.eraseAll combinatorKeywords (membersOf (some schema))) option),
          data, path)
      | none => ([], [])
    | none => join (roundObject pinned call schema data path) (roundArray pinned call schema data path)

/-- What lies below a field, as a function of the calls. -/
def belowCall [Patterns] (pinned : SortedMap Combinator) (call : Call) :
    List String × List FieldNode :=
  below pinned call.1 call.2.1 call.2.2

variable {pinned : SortedMap Combinator}

theorem belowProperties_eq_round [Patterns] (required : List String)
    (properties : List (String × Json)) (data : Option Json) (path : String) :
    belowProperties pinned required properties data path =
      roundProperties pinned (belowCall pinned) required data path properties := by
  induction properties with
  | nil => exact belowProperties_nil required data path
  | cons entry rest ih =>
    rw [belowProperties_cons, ih]
    rfl

theorem belowItems_eq_round [Patterns] (schemas : List Json) (last : Json) (items : List Json)
    (path : String) (index : Nat) :
    belowItems pinned schemas last items path index =
      roundItems pinned (belowCall pinned) last path schemas items index := by
  induction items generalizing schemas index with
  | nil =>
    rw [belowItems_nil, roundItems]
  | cons item items ih =>
    rw [belowItems_cons, ih]
    rfl

theorem propertiesBelow_eq_round [Patterns] (schema : Json) (data : Option Json) (path : String) :
    propertiesBelow pinned schema data path =
      roundObject pinned (belowCall pinned) schema data path := by
  unfold propertiesBelow roundObject
  cases schema.getFields? "properties" with
  | none => rfl
  | some properties =>
    dsimp only
    rw [belowProperties_eq_round]

theorem itemsBelow_eq_round [Patterns] (schema : Json) (data : Option Json) (path : String) :
    itemsBelow pinned schema data path =
      roundArray pinned (belowCall pinned) schema data path := by
  unfold itemsBelow roundArray
  cases data.bind items? with
  | none => rfl
  | some items =>
    dsimp only
    rw [belowItems_eq_round]

theorem round_eq [Patterns] (pinned : SortedMap Combinator) :
    round pinned (belowCall pinned) = belowCall pinned := by
  funext call
  obtain ⟨schema, data, path⟩ := call
  show _ = below pinned schema data path
  cases hbranches : branches? (membersOf (some schema)) with
  | some offer =>
    obtain ⟨kind, options⟩ := offer
    cases hfits : fittingBranch? options data with
    | some option =>
      rw [below_of_branch hbranches hfits, round, hbranches]
      dsimp only
      rw [hfits]
      rfl
    | none =>
      rw [below_of_no_fit hbranches hfits, round, hbranches]
      dsimp only
      rw [hfits]
  | none =>
    rw [below_of_no_branches hbranches, round, hbranches, propertiesBelow_eq_round,
      itemsBelow_eq_round]

/-- The call is on a smaller schema with data that are no larger, or on an element of the data with
the schema that says nothing, because the schema does not describe the elements. -/
def Lower (call other : Call) : Prop :=
  (call.1.size < other.1.size ∧ sizeOpt call.2.1 ≤ sizeOpt other.2.1) ∨
    (call.1 = .empty ∧ (∀ fields, other.1.get? "items" ≠ some (.obj fields)) ∧
      ∃ items item, other.2.1 = some (.arr items) ∧ item ∈ items ∧ call.2.1 = some item)

/-- Schema and data together get smaller. -/
theorem size_lt_of_lower {call other : Call} (h : Lower call other) :
    call.1.size + sizeOpt call.2.1 < other.1.size + sizeOpt other.2.1 := by
  rcases h with ⟨hschema, hdata⟩ | ⟨hschema, -, items, item, hitems, hitem, hdata⟩
  · omega
  · have hother := size_pos other.1
    have helement := size_le_sizeItems hitem
    rw [hschema, hitems, hdata]
    simp only [Json.empty, size, sizeEntries, sizeOpt_some]
    omega

theorem size_lt_of_get? {schema v : Json} {key : String} (h : schema.get? key = some v) :
    v.size < schema.size := by
  cases schema with
  | obj fields => exact size_lt_of_mem (Entries.mem_of_get? h)
  | _ => cases h

theorem size_lt_of_mem_properties {schema : Json} {properties : Fields}
    (h : schema.getFields? "properties" = some properties) {e : String × Json}
    (he : e ∈ properties) : e.2.size < schema.size := by
  obtain ⟨v, hv, hfields⟩ := Option.bind_eq_some_iff.1 h
  cases v with
  | obj fields =>
    obtain rfl : fields = properties := Option.some.inj hfields
    exact Nat.lt_trans (size_lt_of_mem he) (size_lt_of_get? hv)
  | _ => cases hfields

variable {f g : Call → List String × List FieldNode}

theorem roundChild_congr [Patterns] {schema : Json} {data : Option Json} {path : String}
    (h : f (schema, data, path) = g (schema, data, path)) (origin : Origin) (required : Bool) :
    roundChild pinned f schema data path origin required =
      roundChild pinned g schema data path origin required := by
  rw [roundChild, roundChild, h]

theorem roundProperties_congr [Patterns] {data : Option Json} {properties : List (String × Json)}
    (h : ∀ e ∈ properties, ∀ path,
      f (e.2, data.bind (get? e.1), path) = g (e.2, data.bind (get? e.1), path))
    (required : List String) (path : String) :
    roundProperties pinned f required data path properties =
      roundProperties pinned g required data path properties := by
  induction properties with
  | nil => rfl
  | cons entry rest ih =>
    obtain ⟨name, schema⟩ := entry
    have hchild := h (name, schema) List.mem_cons_self (Pointer.append path name)
    rw [roundProperties, roundProperties, roundChild_congr hchild,
      ih fun e he => h e (List.mem_cons_of_mem _ he)]

theorem roundItems_congr [Patterns] {last : Json} {schemas items : List Json}
    (h : ∀ schema item path, (schema ∈ schemas ∨ schema = last) → item ∈ items →
      f (schema, some item, path) = g (schema, some item, path)) (path : String) (index : Nat) :
    roundItems pinned f last path schemas items index =
      roundItems pinned g last path schemas items index := by
  induction items generalizing schemas index with
  | nil => rw [roundItems, roundItems]
  | cons item items ih =>
    have hfirst : schemas.headD last ∈ schemas ∨ schemas.headD last = last := by
      cases schemas with
      | nil => exact .inr rfl
      | cons schema schemas => exact .inl List.mem_cons_self
    have hchild := h _ item (Pointer.appendIndex path index) hfirst List.mem_cons_self
    rw [roundItems, roundItems, roundChild_congr hchild, ih]
    intro schema item path hschema hitem
    exact h schema item path (hschema.imp_left List.mem_of_mem_tail) (List.mem_cons_of_mem _ hitem)

/-- The calls for properties are lower ones. -/
theorem lower_of_property {schema : Json} {data : Option Json} {properties : Fields}
    (hproperties : schema.getFields? "properties" = some properties) {e : String × Json}
    (he : e ∈ properties) (path childPath : String) :
    Lower (e.2, data.bind (get? e.1), childPath) (schema, data, path) :=
  .inl ⟨size_lt_of_mem_properties hproperties he, sizeOpt_bind_get?_le data e.1⟩

/-- The calls for elements are lower ones. -/
theorem lower_of_element {schema other item : Json} {data : Option Json} {items : List Json}
    (hitems : data.bind items? = some items)
    (hschema : schema ∈ (other.getItems? "prefixItems").getD [] ∨ schema = itemSchema other)
    (hitem : item ∈ items) (path childPath : String) :
    Lower (schema, some item, childPath) (other, data, path) := by
  obtain ⟨v, rfl, hv⟩ := Option.bind_eq_some_iff.1 hitems
  obtain rfl : v = .arr items := by
    cases v with
    | arr others => rw [Option.some.inj hv]
    | _ => cases hv
  have hdata : sizeOpt (some item) ≤ sizeOpt (some (.arr items)) := by
    have := size_le_sizeItems hitem
    simp only [sizeOpt_some, size]
    omega
  rcases hschema with hprefix | rfl
  · have hsize := size_le_sizeItems hprefix
    have hboth := size_itemSchemas_le other
    have hlast := size_pos (itemSchema other)
    refine .inl ⟨?_, hdata⟩
    show schema.size < other.size
    omega
  · unfold itemSchema
    split
    · next fields hfields => exact .inl ⟨size_lt_of_get? hfields, hdata⟩
    · next hnone => exact .inr ⟨rfl, fun fields heq => hnone fields heq, items, item, rfl, hitem, rfl⟩

theorem consults_round [Patterns] (pinned : SortedMap Combinator) :
    Consults Lower (round pinned) := by
  intro f g call h
  obtain ⟨schema, data, path⟩ := call
  rw [round, round]
  cases hbranches : branches? (membersOf (some schema)) with
  | some offer =>
    obtain ⟨kind, options⟩ := offer
    dsimp only
    cases hfits : fittingBranch? options data with
    | some option =>
      refine h _ (.inl ⟨?_, Nat.le_refl _⟩)
      have hbelow := sizeEntries_membersOf_lt schema
      have hmerged := Selection.sizeEntries_absorb_option_lt hbranches
        (List.mem_of_find?_eq_some hfits)
      simp only [size]
      omega
    | none => rfl
  | none =>
    have hobject : roundObject pinned f schema data path =
        roundObject pinned g schema data path := by
      unfold roundObject
      cases hproperties : schema.getFields? "properties" with
      | none => rfl
      | some properties =>
        dsimp only
        rw [roundProperties_congr fun e he childPath =>
          h _ (lower_of_property hproperties he path childPath)]
    have harray : roundArray pinned f schema data path =
        roundArray pinned g schema data path := by
      unfold roundArray
      cases hitems : data.bind items? with
      | none => rfl
      | some items =>
        dsimp only
        rw [roundItems_congr fun element item childPath helement hitem =>
          h _ (lower_of_element hitems helement hitem path childPath)]
    dsimp only
    rw [hobject, harray]

/-- Building the tree ends. -/
theorem endsBy_below [Patterns] (pinned : SortedMap Combinator) :
    EndsBy Lower (fun call => call.1.size + sizeOpt call.2.1) (round pinned) (belowCall pinned) :=
  .of_consults (round_eq pinned) (fun _ _ h => size_lt_of_lower h) (consults_round pinned)

end FieldTree

namespace Pipeline

/-- Calls of which only those on the schema that says nothing give a child. -/
def answerEmpty : FieldTree.Call → List String × List FieldNode
  | (.obj [], _, _) => ([""], [])
  | _ => ([], [])

/-- A merged schema is no larger than its parts together. The passes call themselves on smaller
schemas. The tree goes on to lower calls, and at each of them schema and data together are smaller.
So all of them end. -/
theorem recursions_end [Patterns] :
    (∀ a b : Json, (merge a b).size ≤ a.size + b.size) ∧
    EndsBy Smaller (fun call => call.1.size) Conditional.round Conditional.resolveCall ∧
    EndsBy Smaller (fun call => call.1.size) Dependent.round Dependent.resolveCall ∧
    (∀ selections, EndsBy Smaller (fun call => call.1.size) (Selection.round selections)
      (Selection.resolveCall selections)) ∧
    ∀ pinned, EndsBy FieldTree.Lower (fun call => call.1.size + sizeOpt call.2.1)
      (FieldTree.round pinned) (FieldTree.belowCall pinned) :=
  ⟨size_merge_le, Conditional.endsBy_resolve, Dependent.endsBy_resolve,
    Selection.endsBy_resolve, FieldTree.endsBy_below⟩

/-- Whatever the measure, the tree does not call itself on smaller schemas alone: an element is
described by the schema that says nothing, as its array may be. -/
theorem tree_keeps_schema_of_element :
    ¬ ∃ measure : Json → Nat, ∀ pinned,
      Consults (fun call other => measure call.1 < measure other.1) (FieldTree.round pinned) := by
  rintro ⟨measure, h⟩
  have hsmaller : ∀ call : FieldTree.Call, measure call.1 < measure .empty →
      answerEmpty call = ([], []) := by
    intro call hlt
    unfold answerEmpty
    split
    · exact absurd hlt (Nat.lt_irrefl _)
    · rfl
  have hround := h .empty answerEmpty (fun _ => ([], [])) (.empty, some (.arr [.null]), "") hsmaller
  have hchildren := congrArg (fun found => found.2.map FieldNode.children) hround
  have hasked : ((FieldTree.round .empty answerEmpty (.empty, some (.arr [.null]), "")).2.map
      FieldNode.children) = [[""]] := rfl
  have hunasked : ((FieldTree.round .empty (fun _ => ([], []))
      (.empty, some (.arr [.null]), "")).2.map FieldNode.children) = [[]] := rfl
  simp [hasked, hunasked] at hchildren

end Pipeline
end SchemaForm
