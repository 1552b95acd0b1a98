import SchemaForm.Proofs.Pipeline.Listing
import SchemaForm.Proofs.Pipeline.Value

/-!
# The order of members under defaults

Seeding takes up the children of a field one after the other. A member that is there is replaced in
its place, and one that is not there is added at the end if it gets a value. So the members that were
given keep their order and come first, those that were added follow in the order of the children, and
what no child names is left alone.
-/

namespace SchemaForm

namespace Defaults

open Json FieldTree

variable {index : FieldIndex} {node : FieldNode} {data : Option Json}
  {seed : String → Option Json → Seeded (Option Json)}

/-! ### One field -/

/-- The members given, followed by new ones in the order of the names, with nothing changed under
other names. -/
structure Extends (names : List String) (given seeded : Fields) : Prop where
  order : ∃ added, Entries.keys seeded = Entries.keys given ++ added ∧ List.Sublist added names ∧
    added.Nodup ∧ ∀ key ∈ added, key ∉ Entries.keys given
  untouched : ∀ key, key ∉ names → Entries.get? key seeded = Entries.get? key given

/-- A child is added at the end, or it adds no key. -/
theorem keys_put (child : String) (value : Option Json) (fields : Fields) :
    Entries.keys (put child value fields) = Entries.keys fields ∨
      childKey child ∉ Entries.keys fields ∧
        Entries.keys (put child value fields) = Entries.keys fields ++ [childKey child] := by
  cases value with
  | none => exact .inl rfl
  | some v =>
    by_cases hmem : childKey child ∈ Entries.keys fields
    · exact .inl (Entries.keys_insert_of_mem hmem v)
    · exact .inr ⟨hmem, Entries.keys_insert_of_notMem hmem v⟩

/-- Seeding the members adds keys at the end, in the order of the children. -/
theorem exists_keys_seedMembers (children : List String) (fields : Fields) :
    ∃ added, Entries.keys (seedMembers seed children fields).result =
        Entries.keys fields ++ added ∧
      List.Sublist added (children.map childKey) ∧ added.Nodup ∧
        ∀ key ∈ added, key ∉ Entries.keys fields := by
  induction children generalizing fields with
  | nil => exact ⟨[], (List.append_nil _).symm, List.nil_sublist _, List.nodup_nil, by simp⟩
  | cons child children ih =>
    rw [seedMembers_cons]
    dsimp only
    obtain ⟨added, hkeys, hsub, hnodup, hnew⟩ :=
      ih (put child (seed child (Entries.get? (childKey child) fields)).result fields)
    rcases keys_put child (seed child (Entries.get? (childKey child) fields)).result fields with
      hput | ⟨hmem, hput⟩
    · rw [hput] at hkeys hnew
      exact ⟨added, hkeys, hsub.cons _, hnodup, hnew⟩
    · rw [hput] at hkeys hnew
      refine ⟨childKey child :: added, ?_, hsub.cons_cons _, ?_, ?_⟩
      · rw [hkeys, List.append_assoc]
        rfl
      · refine List.nodup_cons.2 ⟨fun hadded => ?_, hnodup⟩
        exact hnew _ hadded (List.mem_append_right _ (List.mem_singleton_self _))
      · rintro key hkey
        rcases List.mem_cons.1 hkey with rfl | hkey
        · exact hmem
        · exact fun hgiven => hnew key hkey (List.mem_append_left _ hgiven)

theorem extends_seedMembers (hs : Settles seed) (children : List String) (fields : Fields) :
    Extends (children.map childKey) fields (seedMembers seed children fields).result where
  order := exists_keys_seedMembers children fields
  untouched key hkey := by
    refine get?_seedMembers_of_ne hs (fun child hchild heq => ?_) fields
    exact hkey (List.mem_map.2 ⟨child, hchild, heq⟩)

/-! ### Fields below one another -/

/-- The fields to which seeding comes through objects: each has children for the members of an
object, its data are one, with these members, and it is listed by the field above it. -/
inductive ThroughObjects (index : FieldIndex) (data : Option Json) :
    List String → FieldNode → Fields → Prop
  | root {node : FieldNode} {given : Fields} (field : index.get? "" = some node)
      (members : servesMembers node = true)
      (present : atSegments? data [] = some (.obj given)) :
      ThroughObjects index data [] node given
  | member {segments : List String} {segment : String} {node child : FieldNode}
      {given inner : Fields} (above : ThroughObjects index data segments node given)
      (listed : Pointer.append (Pointer.build segments) segment ∈ node.children)
      (field : index.get? (Pointer.build (segments ++ [segment])) = some child)
      (members : servesMembers child = true)
      (present : atSegments? data (segments ++ [segment]) = some (.obj inner)) :
      ThroughObjects index data (segments ++ [segment]) child inner

theorem ThroughObjects.get? {segments : List String} {given : Fields}
    (h : ThroughObjects index data segments node given) :
    index.get? (Pointer.build segments) = some node := by
  cases h with
  | root field => exact field
  | member _ _ field => exact field

theorem ThroughObjects.servesMembers {segments : List String} {given : Fields}
    (h : ThroughObjects index data segments node given) : servesMembers node = true := by
  cases h with
  | root _ members => exact members
  | member _ _ _ members => exact members

theorem ThroughObjects.present {segments : List String} {given : Fields}
    (h : ThroughObjects index data segments node given) :
    atSegments? data segments = some (.obj given) := by
  cases h with
  | root _ _ present => exact present
  | member _ _ _ _ present => exact present

/-- Seeding comes to such a field with the members that were given. -/
theorem ThroughObjects.filledWith {segments : List String} {given : Fields}
    (h : Nested index)
    (hobjects : ThroughObjects (seededIndex index data) data segments node given) :
    FilledWith index data segments (some (.obj given)) := by
  induction hobjects with
  | root _ _ present =>
    rw [← present]
    exact filledWith_root index data
  | @member _ segment _ _ given inner above listed field members present ih =>
    obtain ⟨node, hnode, rfl⟩ := get?_seededIndex above.get?
    have hfilled := ih.member h hnode above.servesMembers listed
    rw [atSegments?_append, above.present] at present
    have hgiven : Entries.get? segment
        (Schema.membersOf (Defaults.given node (some (.obj given)))) = some (.obj inner) := present
    rwa [hgiven] at hfilled

/-- The children of a field are one segment below it, named by their keys. -/
theorem children_eq_map_append (h : Nested index) {path : String}
    (hnode : index.get? path = some node) :
    node.children = (node.children.map childKey).map (Pointer.append path) := by
  rw [List.map_map]
  refine (List.map_id _).symm.trans (List.map_congr_left fun child hchild => ?_)
  obtain ⟨segment, rfl⟩ := h path node hnode child hchild
  rw [Function.comp_apply, childKey_append, id]

/-- Such a field holds the members that were given, extended by what its children add. -/
theorem ThroughObjects.exists_extends {segments : List String} {given : Fields}
    (h : Nested index)
    (hobjects : ThroughObjects (seededIndex index data) data segments node given) :
    ∃ names seeded, node.children = names.map (Pointer.append (Pointer.build segments)) ∧
      node.value = some (.obj seeded) ∧
      atSegments? (fill index "" data).result segments = some (.obj seeded) ∧
      Extends names given seeded := by
  have hfilled := hobjects.filledWith h
  have hserves := hobjects.servesMembers
  obtain ⟨old, hold, rfl⟩ := get?_seededIndex hobjects.get?
  have hserves : Defaults.servesMembers old = true := hserves
  have hchildren := children_eq_map_append h hold
  have hresult := hfilled.result
  rw [fill_of_some h hold, seedField_of_members hserves] at hresult
  exact ⟨_, _, hchildren, (hfilled.value_eq h hold).trans hresult, hresult,
    extends_seedMembers (settles_fill h) _ given⟩

end Defaults

namespace Pipeline

open Defaults FieldTree Json

/-- Seeding keeps the order of an object and what no child names. Every field to which it comes
through objects has its children named by its members, and its value, which is the data at its place,
has the members given in their order, followed by new ones that children name, in the order of the
children. -/
theorem seeding_keeps_order [Patterns] (schema : Json) (data : Option Json)
    (selections : Selections) : ∃ m, run .default schema data selections = .ok m ∧
      ∀ segments node given, ThroughObjects m.index data segments node given →
        ∃ names seeded, node.children = names.map (Pointer.append (Pointer.build segments)) ∧
          node.value = some (.obj seeded) ∧ atSegments? m.data segments = some (.obj seeded) ∧
          Extends names given seeded := by
  have hnested := nested_plainIndex (Schema.prepare schema) data selections
  refine ⟨_, run_default schema data selections, ?_⟩
  rw [data_plainModel, index_plainModel]
  exact fun segments node given hobjects => hobjects.exists_extends hnested

/-- An object with three properties, the first and the last of which have a default. -/
def threeProperties : Json :=
  .obj [("properties", .obj [("first", .obj [("default", int 1)]), ("second", .empty),
    ("third", .obj [("default", int 3)])])]

/-- A member that no property names, and the second property. -/
def twoMembers : Fields := [("other", .null), ("second", int 2)]

theorem keysUnique_threeProperties : threeProperties.KeysUnique := by
  simp [threeProperties]

theorem prepare_threeProperties : Schema.prepare threeProperties = threeProperties :=
  prepare_eq_self rfl rfl rfl rfl

theorem settled_threeProperties [Patterns] (data : Option Json) :
    settled threeProperties data = some threeProperties :=
  settled_of_no_branches rfl data

/-- The root has the properties as its children. -/
theorem get?_plainIndex_threeProperties [Patterns] :
    (plainIndex threeProperties (some (.obj twoMembers)) .empty).get? "" =
      some (node .empty threeProperties (some (.obj twoMembers)) "" .root false
        ["/first", "/second", "/third"]) := by
  show (build .empty (situated threeProperties _) _).get? "" = _
  rw [situated_of_isFixed rfl, get?_build_root, children_of_settled (settled_threeProperties _)]
  rfl

/-- A property has no children, so its field has its member, or else its default. -/
theorem fill_threeProperties [Patterns] {name : String} {schema : Json} {member : Option Json}
    (hproperty : propertyAt name threeProperties (some (.obj twoMembers)) = some (schema, member))
    (hbranches : branches? (Schema.membersOf (some schema)) = none)
    (hproperties : schema.getFields? "properties" = none) (hitems : member.bind items? = none)
    (data : Option Json) :
    (fill (plainIndex threeProperties (some (.obj twoMembers)) .empty) (Pointer.build [name])
      data).result = data.orElse fun _ => schema.get? "default" := by
  have hindex : plainIndex threeProperties (some (.obj twoMembers)) .empty =
      build .empty threeProperties (some (.obj twoMembers)) := by
    show build .empty (situated threeProperties _) _ = _
    rw [situated_of_isFixed rfl]
  have helement : elementAt name threeProperties (some (.obj twoMembers)) = none := ite_self _
  have hfound : fragmentAt [name] threeProperties (some (.obj twoMembers)) =
      some (schema, member) := by
    rw [fragmentAt, settled_threeProperties, Option.bind_some, helement, hproperty]
    rfl
  rw [← @get?_build .empty _ ⟨_, keysUnique_threeProperties⟩] at hfound
  obtain ⟨n, hn, hplace⟩ := Option.map_eq_some_iff.1 hfound
  obtain ⟨-, origin, required, hnode⟩ := isNode_of_get?_build hn
  have hschema : n.schema = schema := congrArg Prod.fst hplace
  have hvalue : n.value = member := congrArg Prod.snd hplace
  have hchildren : n.children = [] := by
    rw [hnode]
    show (below _ n.schema n.value n.path).1 = []
    rw [hschema, hvalue, below_of_leaf hbranches hproperties hitems]
  rw [← hindex] at hn
  rw [fill_of_childless (nested_plainIndex _ _ _) hn hchildren, given, hschema]

theorem data_threeProperties [Patterns] :
    (plainModel threeProperties (some (.obj twoMembers)) .empty).data =
      some (.obj (twoMembers ++ [("first", int 1), ("third", int 3)])) := by
  have hfirst := fill_threeProperties (rfl : propertyAt "first" threeProperties _ =
    some (.obj [("default", int 1)], none)) rfl rfl rfl none
  have hsecond := fill_threeProperties (rfl : propertyAt "second" threeProperties _ =
    some (.empty, some (int 2))) rfl rfl rfl (some (int 2))
  have hthird := fill_threeProperties (rfl : propertyAt "third" threeProperties _ =
    some (.obj [("default", int 3)], none)) rfl rfl rfl none
  rw [data_plainModel, fill_of_some (nested_plainIndex _ _ _) get?_plainIndex_threeProperties,
    seedField_of_members rfl]
  generalize fill (plainIndex threeProperties (some (.obj twoMembers)) .empty) = seed at *
  show some (Json.obj (seedMembers seed ["/first", "/second", "/third"] twoMembers).result) = _
  have hstep : ∀ child children fields value,
      (seed child (Entries.get? (childKey child) fields)).result = value →
        (seedMembers seed (child :: children) fields).result =
          (seedMembers seed children (put child value fields)).result := by
    rintro child children fields _ rfl
    rw [seedMembers_cons]
  rw [hstep _ _ _ _ hfirst, hstep _ _ _ _ hsecond, hstep _ _ _ _ hthird]
  rfl

/-- Two members that are given, one of which no property names, keep their order; the other
properties follow in theirs, with their defaults. -/
theorem seeding_keeps_order_root :
    ∃ m n seeded,
      run .default threeProperties (some (.obj twoMembers)) .empty = .ok m ∧
      ThroughObjects m.index (some (.obj twoMembers)) [] n twoMembers ∧
      n.children = ["first", "second", "third"].map (Pointer.append (Pointer.build [])) ∧
      n.value = some (.obj seeded) ∧ Extends ["first", "second", "third"] twoMembers seeded ∧
      seeded = twoMembers ++ [("first", int 1), ("third", int 3)] := by
  obtain ⟨m, hrun, hkeeps⟩ :=
    seeding_keeps_order threeProperties (some (.obj twoMembers)) .empty
  obtain rfl := eq_plainModel_of_run prepare_threeProperties hrun
  obtain ⟨value, hroot⟩ := exists_get?_plainModel get?_plainIndex_threeProperties
  have hobjects : ThroughObjects _ (some (.obj twoMembers)) [] _ twoMembers :=
    .root hroot rfl rfl
  obtain ⟨names, seeded, hnames, hvalue, hdata, hextends⟩ := hkeeps _ _ _ hobjects
  have hlisted : ["first", "second", "third"].map (Pointer.append (Pointer.build [])) =
      names.map (Pointer.append (Pointer.build [])) := hnames
  obtain rfl := List.map_injective_iff.2 (fun _ _ => Pointer.append_injective) hlisted
  refine ⟨_, _, seeded, hrun, hobjects, hnames, hvalue, hextends, ?_⟩
  exact Json.obj.inj (Option.some.inj (hdata.symm.trans data_threeProperties))

end Pipeline
end SchemaForm
