import SchemaForm.Proofs.Json.KeysUnique
import SchemaForm.Proofs.Schema.Location

/-!
# Schemas keep distinct keys

Merging, flattening, normalizing and resolving references make no object with a key twice out of
schemas without one. So the preparation of a schema with distinct keys has distinct keys.
-/

namespace SchemaForm

namespace Schema

open Json

/-! ### Values that hold no schema to merge -/

variable {a : Option Json} {b : Json}

theorem membersUnique_membersOf (ha : ∀ v ∈ a, v.KeysUnique) : MembersUnique (membersOf a) := by
  unfold membersOf
  cases a with
  | none => exact membersUnique_nil
  | some v =>
    cases hfields : v.fields? with
    | none =>
      rw [Option.bind_some, hfields]
      exact membersUnique_nil
    | some fields =>
      rw [Option.bind_some, hfields]
      exact (ha v rfl).fields? hfields

theorem keysUnique_asList {v : Json} (hv : v.KeysUnique) : ∀ item ∈ asList v, item.KeysUnique := by
  cases v with
  | arr items => exact keysUnique_arr_iff.1 hv
  | _ =>
    intro item hitem
    rw [List.mem_singleton.1 hitem]
    exact hv

theorem keysUnique_ofList {items : List Json} (h : ∀ item ∈ items, item.KeysUnique) :
    (ofList items).KeysUnique := by
  unfold ofList
  split
  · exact h _ (List.mem_singleton_self _)
  · exact .arr h

theorem keysUnique_mergeTypes (ha : ∀ v ∈ a, v.KeysUnique) (hb : b.KeysUnique) :
    (mergeTypes a b).KeysUnique := by
  cases a with
  | none => exact hb
  | some v =>
    refine keysUnique_ofList fun item hitem => ?_
    exact keysUnique_asList (ha v rfl) item (List.mem_of_mem_filter hitem)

theorem keysUnique_elements {v : Option Json} (hv : ∀ x ∈ v, x.KeysUnique) :
    ∀ item ∈ (v.bind Json.items?).getD [], item.KeysUnique := by
  intro item hitem
  cases hitems : v.bind Json.items? with
  | none =>
    rw [hitems] at hitem
    cases hitem
  | some items =>
    obtain ⟨x, hx, hxitems⟩ := Option.bind_eq_some_iff.1 hitems
    rw [hitems] at hitem
    exact (hv x hx).items? hxitems item hitem

theorem keysUnique_addNames {names acc : List Json} (hacc : ∀ name ∈ acc, name.KeysUnique)
    (hnames : ∀ name ∈ names, name.KeysUnique) :
    ∀ name ∈ names.foldl
      (fun names name => if name.memberOf names then names else names ++ [name]) acc,
      name.KeysUnique := by
  induction names generalizing acc with
  | nil => exact hacc
  | cons head rest ih =>
    rw [List.foldl_cons]
    refine ih ?_ fun name hname => hnames name (List.mem_cons_of_mem _ hname)
    intro name hname
    split at hname
    · exact hacc name hname
    · rcases List.mem_append.1 hname with hname | hname
      · exact hacc name hname
      · rw [List.mem_singleton.1 hname]
        exact hnames head List.mem_cons_self

theorem keysUnique_mergeNames (ha : ∀ v ∈ a, v.KeysUnique) (hb : b.KeysUnique) :
    (mergeNames a b).KeysUnique := by
  refine .arr (keysUnique_addNames (keysUnique_elements ha) ?_)
  exact keysUnique_elements (v := some b) fun x hx => by cases hx; exact hb

theorem keysUnique_mergeNamesByName (ha : ∀ v ∈ a, v.KeysUnique) (hb : b.KeysUnique) :
    (mergeNamesByName a b).KeysUnique := by
  cases b with
  | obj lists =>
    have hlists := (keysUnique_obj_iff.1 hb).values
    refine keysUnique_obj_iff.2 ?_
    have hacc := membersUnique_membersOf ha
    clear hb
    -- The lists are united one after the other into the members gathered so far.
    generalize membersOf a = acc at hacc ⊢
    induction lists generalizing acc with
    | nil => exact hacc
    | cons entry rest ih =>
      rw [List.foldl_cons]
      refine ih (fun entry hentry => hlists entry (List.mem_cons_of_mem _ hentry)) _ ?_
      refine hacc.insert _ (keysUnique_mergeNames (fun v hv => hacc.get? hv) ?_)
      exact hlists entry List.mem_cons_self
  | _ => exact hb

theorem keysUnique_mergeOptions (ha : ∀ v ∈ a, v.KeysUnique) (hb : b.KeysUnique) :
    (mergeOptions a b).KeysUnique := by
  unfold mergeOptions
  split
  · next xs ys =>
    refine .arr fun x hx => ?_
    exact keysUnique_arr_iff.1 (ha _ rfl) x (List.mem_of_mem_filter hx)
  · exact hb

theorem keysUnique_mergeBound (tighter : Binary64 → Binary64 → Bool)
    (ha : ∀ v ∈ a, v.KeysUnique) (hb : b.KeysUnique) : (mergeBound tighter a b).KeysUnique := by
  unfold mergeBound
  split
  · split
    · exact ha _ rfl
    · exact hb
  · exact hb

theorem keysUnique_mergeValue {rule : MergeRule} {v : Json} (ha : ∀ v ∈ a, v.KeysUnique)
    (hb : b.KeysUnique) (h : mergeValue rule a b = some v) : v.KeysUnique := by
  cases rule with
  | types => exact Option.some.inj h ▸ keysUnique_mergeTypes ha hb
  | names => exact Option.some.inj h ▸ keysUnique_mergeNames ha hb
  | namesByName => exact Option.some.inj h ▸ keysUnique_mergeNamesByName ha hb
  | options => exact Option.some.inj h ▸ keysUnique_mergeOptions ha hb
  | lowerBound => exact Option.some.inj h ▸ keysUnique_mergeBound _ ha hb
  | upperBound => exact Option.some.inj h ▸ keysUnique_mergeBound _ ha hb
  | first =>
    simp only [mergeValue] at h
    split at h
    · cases h
    · exact Option.some.inj h ▸ hb
  | schemasByName => exact Option.some.inj h ▸ hb
  | schema => exact Option.some.inj h ▸ hb
  | last => exact Option.some.inj h ▸ hb

/-! ### Merging -/

theorem keysUnique_merge :
    (∀ a b : Json, a.KeysUnique → b.KeysUnique → (merge a b).KeysUnique) ∧
    (∀ (acc : Fields) (keywords : List (String × Json)), MembersUnique acc →
      (∀ entry ∈ keywords, entry.2.KeysUnique) → MembersUnique (mergeKeywords acc keywords)) ∧
    (∀ (rule : MergeRule) (a : Option Json) (b : Json), (∀ v ∈ a, v.KeysUnique) → b.KeysUnique →
      ∀ v ∈ mergeJoined rule a b, v.KeysUnique) ∧
    (∀ (acc : Fields) (named : List (String × Json)), MembersUnique acc →
      (∀ entry ∈ named, entry.2.KeysUnique) → MembersUnique (mergeNamed acc named)) := by
  apply merge.mutual_induct
    (fun a b => a.KeysUnique → b.KeysUnique → (merge a b).KeysUnique)
    (fun acc keywords => MembersUnique acc → (∀ entry ∈ keywords, entry.2.KeysUnique) →
      MembersUnique (mergeKeywords acc keywords))
    (fun rule a b => (∀ v ∈ a, v.KeysUnique) → b.KeysUnique →
      ∀ v ∈ mergeJoined rule a b, v.KeysUnique)
    (fun acc named => MembersUnique acc → (∀ entry ∈ named, entry.2.KeysUnique) →
      MembersUnique (mergeNamed acc named))
  case case1 =>
    intro a b ih ha hb
    rw [merge]
    exact keysUnique_obj_iff.2 (ih (keysUnique_obj_iff.1 ha) (keysUnique_obj_iff.1 hb).values)
  case case2 =>
    intro a b hnot ha hb
    rw [merge]
    · exact hb
    · exact hnot
  case case3 =>
    intro b a hboth hnot ha hb
    rw [merge]
    · exact ha
    · exact hnot
    · exact hboth
  case case4 =>
    intro lists a ih ha hb v hv
    rw [mergeJoined] at hv
    cases hv
    exact keysUnique_obj_iff.2 (ih (membersUnique_membersOf ha) (keysUnique_obj_iff.1 hb).values)
  case case5 =>
    intro keywords a ih ha hb v hv
    rw [mergeJoined] at hv
    cases hv
    exact keysUnique_obj_iff.2
      (ih (keysUnique_obj_iff.1 (ha _ rfl)) (keysUnique_obj_iff.1 hb).values)
  case case6 =>
    intro keywords rule a hnamed hschema ha hb v hv
    rw [mergeJoined] at hv
    · exact keysUnique_mergeValue ha hb hv
    · exact hnamed
    · exact hschema
  case case7 =>
    intro b rule a hnot ha hb v hv
    rw [mergeJoined] at hv
    · exact keysUnique_mergeValue ha hb hv
    · exact hnot
  case case8 =>
    intro acc hacc _
    exact hacc
  case case9 =>
    intro acc keyword b rest ihJoined ihRest hacc hrest
    rw [mergeKeywords]
    refine ihRest ?_ fun entry hentry => hrest entry (List.mem_cons_of_mem _ hentry)
    split
    · next v hv =>
      refine hacc.insert keyword (ihJoined (fun x hx => hacc.get? hx) ?_ v hv)
      exact hrest (keyword, b) List.mem_cons_self
    · exact hacc
  case case10 =>
    intro acc hacc _
    exact hacc
  case case11 =>
    intro acc name b rest joined ihMerge ihRest hacc hrest
    have hb : b.KeysUnique := hrest (name, b) List.mem_cons_self
    rw [mergeNamed]
    refine ihRest (hacc.insert name ?_) fun entry hentry =>
      hrest entry (List.mem_cons_of_mem _ hentry)
    cases hfound : Entries.get? name acc with
    | none =>
      show (Option.elim (Entries.get? name acc) b fun a => merge a b).KeysUnique
      rw [hfound]
      exact hb
    | some a =>
      show (Option.elim (Entries.get? name acc) b fun a => merge a b).KeysUnique
      rw [hfound]
      exact ihMerge a (hacc.get? hfound) hb

theorem membersUnique_absorb {acc : Fields} (hacc : MembersUnique acc) {b : Json}
    (hb : b.KeysUnique) : MembersUnique (absorb acc b) := by
  cases b with
  | obj keywords => exact keysUnique_merge.2.1 acc keywords hacc (keysUnique_obj_iff.1 hb).values
  | _ => exact hacc

/-! ### Schemas below schemas -/

theorem keysUnique_of_mem_below {keywords : Fields} (h : MembersUnique keywords)
    {e : String × Json} (he : e ∈ below keywords) : e.2.KeysUnique :=
  of_mem_below (fun _ h => (keysUnique_obj_iff.1 h).values) (fun _ h => keysUnique_arr_iff.1 h)
    h.values he

theorem keysUnique_mapHeld_arr {f : Json → Json} {items : List Json}
    (h : ∀ v ∈ items, v.KeysUnique ∧ (f v).KeysUnique) (holder : Option Holder) :
    (mapHeld f holder (.arr items)).KeysUnique := by
  match holder with
  | some .list =>
    refine .arr fun w hw => ?_
    obtain ⟨item, hitem, rfl⟩ := List.mem_map.1 hw
    exact (h item hitem).2
  | some .byName => exact .arr fun v hv => (h v hv).1
  | some .single => exact .arr fun v hv => (h v hv).1
  | none => exact .arr fun v hv => (h v hv).1

theorem keysUnique_mapHeld_obj {f : Json → Json} {entries : Fields}
    (hentries : MembersUnique entries) (h : ∀ entry ∈ entries, (f entry.2).KeysUnique)
    (hself : (f (.obj entries)).KeysUnique) (holder : Option Holder) :
    (mapHeld f holder (.obj entries)).KeysUnique := by
  match holder with
  | some .byName => exact keysUnique_obj_iff.2 (hentries.map h)
  | some .single => exact hself
  | some .list => exact keysUnique_obj_iff.2 hentries
  | none => exact keysUnique_obj_iff.2 hentries

theorem keysUnique_mapHeld {f : Json → Json} (hf : ∀ v, v.KeysUnique → (f v).KeysUnique)
    (holder : Option Holder) {v : Json} (hv : v.KeysUnique) : (mapHeld f holder v).KeysUnique := by
  cases v with
  | arr items =>
    have hitems := keysUnique_arr_iff.1 hv
    exact keysUnique_mapHeld_arr (fun v hv => ⟨hitems v hv, hf v (hitems v hv)⟩) holder
  | obj entries =>
    have hentries := keysUnique_obj_iff.1 hv
    exact keysUnique_mapHeld_obj hentries (fun e he => hf _ (hentries.values e he)) (hf _ hv) holder
  | _ =>
    rw [mapHeld_scalar rfl rfl]
    exact hv

/-- What is made of a schema by way of the schemas directly below has distinct keys, if so at each
object. -/
theorem keysUnique_of_mapSchemas {f : Json → Json} (hleaf : ∀ v, v.isObj = false → f v = v)
    (hobj : ∀ keywords, MembersUnique keywords → MembersUnique (mapSchemas f keywords) →
      (f (.obj keywords)).KeysUnique) {v : Json} (hv : v.KeysUnique) : (f v).KeysUnique := by
  -- Where names stand between, the schemas below are two levels down, so the induction speaks of
  -- the value of a keyword too.
  suffices hboth : (f v).KeysUnique ∧ ∀ holder, (mapHeld f holder v).KeysUnique from hboth.1
  have hscalar : ∀ v : Json, v.KeysUnique → v.isObj = false → v.isArr = false →
      (f v).KeysUnique ∧ ∀ holder, (mapHeld f holder v).KeysUnique := by
    intro v hv hobj harr
    rw [hleaf v hobj]
    refine ⟨hv, fun holder => ?_⟩
    rw [mapHeld_scalar hobj harr]
    exact hv
  induction hv with
  | null => exact hscalar _ .null rfl rfl
  | bool b => exact hscalar _ (.bool b) rfl rfl
  | num n => exact hscalar _ (.num n) rfl rfl
  | str s => exact hscalar _ (.str s) rfl rfl
  | arr h ih =>
    rw [hleaf _ rfl]
    exact ⟨.arr h, keysUnique_mapHeld_arr fun v hv => ⟨h v hv, (ih v hv).1⟩⟩
  | obj nodup values ih =>
    have hentries : MembersUnique _ := ⟨nodup, values⟩
    have hself := hobj _ hentries (hentries.map fun entry hentry => (ih entry hentry).2 _)
    exact ⟨hself, keysUnique_mapHeld_obj hentries (fun e he => (ih e he).1) hself⟩

theorem keysUnique_bottomUp {f : Fields → Json}
    (hf : ∀ keywords, MembersUnique keywords → (f keywords).KeysUnique) {v : Json}
    (hv : v.KeysUnique) : (bottomUp f v).KeysUnique := by
  refine keysUnique_of_mapSchemas (fun _ hv => bottomUp_of_not_obj hv f) ?_ hv
  intro keywords _ hbelow
  rw [bottomUp, bottomUpKeywords_eq_mapSchemas]
  exact hf _ hbelow

theorem keysUnique_absorbParts {keywords : Fields} (h : MembersUnique keywords) :
    (absorbParts keywords).KeysUnique := by
  have hrest := h.swapErase "allOf"
  unfold absorbParts
  split
  · next parts hparts =>
    have hunique := keysUnique_arr_iff.1 (h.get? hparts)
    refine keysUnique_obj_iff.2 ?_
    clear hparts
    generalize Entries.swapErase "allOf" keywords = acc at hrest ⊢
    induction parts generalizing acc with
    | nil => exact hrest
    | cons part parts ih =>
      rw [List.foldl_cons]
      refine ih (fun v hv => hunique v (List.mem_cons_of_mem _ hv)) _ ?_
      exact membersUnique_absorb hrest (hunique part List.mem_cons_self)
  · exact keysUnique_obj_iff.2 hrest

theorem keysUnique_flatten {schema : Json} (h : schema.KeysUnique) : (flatten schema).KeysUnique :=
  keysUnique_bottomUp (fun _ => keysUnique_absorbParts) h

/-! ### Normal form -/

theorem membersUnique_renameDefinitions {keywords : Fields} (h : MembersUnique keywords) :
    MembersUnique (renameDefinitions keywords) := by
  unfold renameDefinitions
  split
  · exact h
  · split
    · next definitions hfound => exact (h.swapErase _).insert _ (h.get? hfound)
    · exact h

theorem membersUnique_splitTuple {keywords : Fields} (h : MembersUnique keywords) :
    MembersUnique (splitTuple keywords) := by
  unfold splitTuple
  split
  · next items hitems =>
    have hrenamed := (h.swapErase "items").insert "prefixItems" (h.get? hitems)
    have hrest := hrenamed.swapErase "additionalItems"
    dsimp only
    split
    · exact hrest.insert _ keysUnique_empty
    · next schema hschema => exact hrest.insert _ (hrenamed.get? hschema)
    · exact hrest
  · exact h

theorem membersUnique_numberBound (exclusive bound : String) {keywords : Fields}
    (h : MembersUnique keywords) : MembersUnique (numberBound exclusive bound keywords) := by
  unfold numberBound
  split
  · split
    · next limit hlimit _ => exact (h.swapErase _).insert _ (h.get? hlimit)
    · exact h.swapErase _
  · exact h

theorem membersUnique_moveDependency {keywords : Fields} (h : MembersUnique keywords)
    (trigger : String) {dependency : Json} (hdependency : dependency.KeysUnique) :
    MembersUnique (moveDependency keywords trigger dependency) := by
  unfold moveDependency
  dsimp only
  split
  · refine h.insert _ (keysUnique_obj_iff.2 ?_)
    exact membersUnique_cons_iff.2 ⟨List.not_mem_nil, hdependency, membersUnique_nil⟩
  · next entries hentries =>
    refine h.insert _ (keysUnique_obj_iff.2 ?_)
    exact (keysUnique_obj_iff.1 (h.get? hentries)).insert _ hdependency
  · exact h

theorem membersUnique_splitDependencies {keywords : Fields} (h : MembersUnique keywords) :
    MembersUnique (splitDependencies keywords) := by
  have hrest := h.swapErase "dependencies"
  unfold splitDependencies
  dsimp only
  split
  · next dependencies hdependencies =>
    have hvalues := (keysUnique_obj_iff.1 (h.get? hdependencies)).values
    clear hdependencies
    generalize Entries.swapErase "dependencies" keywords = acc at hrest ⊢
    induction dependencies generalizing acc with
    | nil => exact hrest
    | cons entry rest ih =>
      rw [List.foldl_cons]
      refine ih (fun entry hentry => hvalues entry (List.mem_cons_of_mem _ hentry)) _ ?_
      exact membersUnique_moveDependency hrest _ (hvalues entry List.mem_cons_self)
  · exact hrest

theorem membersUnique_currentKeywords {keywords : Fields} (h : MembersUnique keywords) :
    MembersUnique (currentKeywords keywords) :=
  membersUnique_splitDependencies <| membersUnique_numberBound _ _ <|
    membersUnique_numberBound _ _ <| membersUnique_splitTuple <| membersUnique_renameDefinitions h

theorem keysUnique_normalizeLevels (depth : Nat) {schema : Json} (h : schema.KeysUnique) :
    (normalizeLevels depth schema).KeysUnique := by
  induction depth generalizing schema with
  | zero => exact h
  | succ depth ih =>
    cases schema with
    | obj keywords =>
      have hcurrent := membersUnique_currentKeywords (keysUnique_obj_iff.1 h)
      refine keysUnique_obj_iff.2 (hcurrent.map fun entry hentry => ?_)
      exact keysUnique_mapHeld (fun v hv => ih hv) _ (hcurrent.values entry hentry)
    | _ => exact h

theorem keysUnique_normalize {schema : Json} (h : schema.KeysUnique) :
    (normalize schema).KeysUnique :=
  keysUnique_normalizeLevels _ h

/-! ### References -/

theorem keysUnique_inlineWith {target? : String → Option Json}
    (htarget : ∀ reference schema, target? reference = some schema → schema.KeysUnique) {v : Json}
    (hv : v.KeysUnique) : (inlineWith target? v).KeysUnique := by
  refine keysUnique_of_mapSchemas (fun _ hv => inlineWith_of_not_obj hv target?) ?_ hv
  intro keywords hkeywords hbelow
  rw [inlineWith]
  cases reference? keywords with
  | none =>
    dsimp only
    rw [inlineKeywords_eq_mapSchemas]
    exact keysUnique_obj_iff.2 hbelow
  | some reference =>
    dsimp only
    cases hfound : target? reference with
    | none => exact keysUnique_obj_iff.2 hkeywords
    | some schema => exact htarget reference schema hfound

theorem keysUnique_definition {definitions : Fields} (h : MembersUnique definitions)
    {reference : String} {schema : Json}
    (hschema : definition? definitions reference = some schema) : schema.KeysUnique := by
  obtain ⟨name, -, hname⟩ := Option.bind_eq_some_iff.1 hschema
  exact h.get? hname

theorem keysUnique_expand {definitions : Fields} (hdefinitions : MembersUnique definitions)
    (available : List String) {schema : Json} (h : schema.KeysUnique) :
    (expand definitions available schema).KeysUnique := by
  induction available, schema using expand.induct with
  | case1 available schema ih =>
    rw [expand]
    refine keysUnique_inlineWith (fun reference found hfound => ?_) h
    split at hfound
    · next havailable =>
      obtain ⟨target, htarget, rfl⟩ := Option.map_eq_some_iff.1 hfound
      exact ih reference havailable target (keysUnique_definition hdefinitions htarget)
    · cases hfound

theorem membersUnique_definitions {schema : Json} (h : schema.KeysUnique) :
    MembersUnique (definitions schema) := by
  unfold definitions
  cases hdefs : schema.getFields? "$defs" with
  | some fields => exact h.getFields? hdefs
  | none =>
    cases holder : schema.getFields? "definitions" with
    | some fields => exact h.getFields? holder
    | none => exact membersUnique_nil

theorem keysUnique_resolveReferences {schema : Json} (h : schema.KeysUnique) :
    (resolveReferences schema).KeysUnique :=
  keysUnique_expand (membersUnique_definitions h) _ h

/-- The preparation of a schema keeps distinct keys. -/
theorem keysUnique_prepare {schema : Json} (h : schema.KeysUnique) : (prepare schema).KeysUnique :=
  keysUnique_flatten (keysUnique_resolveReferences (keysUnique_normalize h))

end Schema

namespace Document

/-- Two schemas merged into one. -/
def merge (first second : Document) : Document where
  value := Schema.merge first second
  keysUnique := Schema.keysUnique_merge.1 _ _ first.keysUnique second.keysUnique

/-- The preparation of a schema. -/
def prepare (schema : Document) : Document where
  value := Schema.prepare schema
  keysUnique := Schema.keysUnique_prepare schema.keysUnique

end Document
end SchemaForm
