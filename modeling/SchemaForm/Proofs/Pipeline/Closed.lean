import SchemaForm.Proofs.Pipeline.Plain
import SchemaForm.Proofs.Pipeline.Seeding

/-!
# The index is a closed tree

A branch that fits lends its children to the field that offers it, and later fields replace earlier
ones at the same path. Still every listed child is the path of a field, and seeding keeps it so.
Main statement: the model of a run has a root, every field stands under its own path, every child is
a field one segment below its parent, and an array field lists its elements in order.
-/

namespace SchemaForm

namespace FieldTree

open Json Schema

variable {pinned : SortedMap Combinator}

/-! ### Children are listed -/

/-- Every child of the listed fields, and every child to be adopted, is the path of a listed
field. -/
def Covered (listed : List String × List FieldNode) : Prop :=
  ∀ child, (child ∈ listed.1 ∨ ∃ n ∈ listed.2, child ∈ n.children) →
    ∃ n ∈ listed.2, n.path = child

theorem covered_nil : Covered ([], []) := by
  rintro child (h | ⟨n, h, -⟩) <;> cases h

theorem Covered.join {a b : List String × List FieldNode} (ha : Covered a) (hb : Covered b) :
    Covered (join a b) := by
  have hleft : ∀ child, (∃ n ∈ a.2, n.path = child) →
      ∃ n ∈ (FieldTree.join a b).2, n.path = child :=
    fun _ ⟨n, hn, hpath⟩ => ⟨n, List.mem_append_left _ hn, hpath⟩
  have hright : ∀ child, (∃ n ∈ b.2, n.path = child) →
      ∃ n ∈ (FieldTree.join a b).2, n.path = child :=
    fun _ ⟨n, hn, hpath⟩ => ⟨n, List.mem_append_right _ hn, hpath⟩
  rintro child (h | ⟨n, hn, hchild⟩)
  · rcases List.mem_append.1 h with h | h
    · exact hleft child (ha child (Or.inl h))
    · exact hright child (hb child (Or.inl h))
  · rcases List.mem_append.1 hn with hn | hn
    · exact hleft child (ha child (Or.inr ⟨n, hn, hchild⟩))
    · exact hright child (hb child (Or.inr ⟨n, hn, hchild⟩))

/-- A field that adopts the children comes after what lies below it. -/
theorem Covered.adopt [Patterns] {listed : List String × List FieldNode} (h : Covered listed)
    (schema : Json) (data : Option Json) (path : String) (origin : Origin) (required : Bool) :
    Covered ([path], listed.2 ++ [node pinned schema data path origin required listed.1]) := by
  have hbelow : ∀ child, (child ∈ listed.1 ∨ ∃ n ∈ listed.2, child ∈ n.children) →
      ∃ n ∈ listed.2 ++ [node pinned schema data path origin required listed.1],
        n.path = child := by
    intro child hchild
    obtain ⟨n, hn, hpath⟩ := h child hchild
    exact ⟨n, List.mem_append_left _ hn, hpath⟩
  rintro child (hchild | ⟨n, hn, hchild⟩)
  · rw [List.mem_singleton.1 hchild]
    exact ⟨_, List.mem_append_right _ (List.mem_singleton_self _), rfl⟩
  · rcases List.mem_append.1 hn with hn | hn
    · exact hbelow child (Or.inr ⟨n, hn, hchild⟩)
    · rw [List.mem_singleton.1 hn] at hchild
      exact hbelow child (Or.inl hchild)

theorem covered_below [Patterns] (pinned : SortedMap Combinator) :
    (∀ schema data path, Covered (below pinned schema data path)) ∧
    (∀ schemas rest items path index, Covered (belowItems pinned schemas rest items path index)) ∧
    (∀ required properties data path,
      Covered (belowProperties pinned required properties data path)) := by
  apply below.mutual_induct pinned
    (fun schema data path => Covered (below pinned schema data path))
    (fun schemas rest items path index =>
      Covered (belowItems pinned schemas rest items path index))
    (fun required properties data path =>
      Covered (belowProperties pinned required properties data path))
  case case1 =>
    -- with the children of the branch comes all that lies below them
    intro schema data path kind options hbranches option hfits ih
    rw [below_of_branch hbranches hfits]
    exact ih
  case case2 =>
    intro schema data path kind options hbranches hfits
    rw [below_of_no_fit hbranches hfits]
    exact covered_nil
  case case3 =>
    intro schema data path hbranches ihProperties ihItems
    rw [below_of_no_branches hbranches]
    refine Covered.join ?_ ?_
    · unfold propertiesBelow
      split
      · split
        · next properties hproperties => exact ihProperties properties hproperties
        · exact covered_nil
      · exact covered_nil
    · unfold itemsBelow
      split
      · split
        · next items hitems => exact ihItems items hitems
        · exact covered_nil
      · exact covered_nil
  case case4 =>
    intro schemas rest path index
    rw [belowItems_nil]
    exact covered_nil
  case case5 =>
    intro rest path index item items childPath schema schemas children found _ ih ihRest
    rw [belowItems_cons]
    exact (ih.adopt _ _ _ _ _).join ihRest
  case case6 =>
    intro rest path index item items childPath children found _ ih ihRest
    rw [belowItems_cons]
    exact (ih.adopt _ _ _ _ _).join ihRest
  case case7 =>
    intro required data path
    rw [belowProperties_nil]
    exact covered_nil
  case case8 =>
    intro required data path name schema rest childPath member children found _ ih ihRest
    rw [belowProperties_cons]
    exact (ih.adopt _ _ _ _ _).join ihRest

theorem covered_fields [Patterns] (schema : Json) (data : Option Json) :
    Covered ([""], fields pinned schema data) :=
  ((covered_below pinned).1 schema data "").adopt _ _ _ _ _

/-! ### What a field is built from -/

/-- Steps to members and to elements lead from some data to a value. -/
inductive Within : Option Json → List String → Option Json → Prop where
  | root (data : Option Json) : Within data [] data
  | member {data value : Option Json} {name : String} {rest : List String}
      (h : Within (data.bind (get? name)) rest value) : Within data (name :: rest) value
  | element {items : List Json} {i : Nat} {item : Json} {rest : List String} {value : Option Json}
      (hitem : items[i]? = some item) (h : Within (some item) rest value) :
      Within (some (.arr items)) (toString i :: rest) value

/-- The field stands below a path, and its value is what the segments lead to from some data. -/
def BuiltFrom (data : Option Json) (path : String) (n : FieldNode) : Prop :=
  ∃ segments, n.path = Pointer.join path segments ∧ Within data segments n.value

theorem exists_segments_of_child [Patterns] {path segment : String} {schema : Json}
    {data : Option Json} {origin : Origin} {required : Bool} {listed : List String × List FieldNode}
    (hbelow : ∀ n ∈ listed.2, BuiltFrom data (Pointer.append path segment) n) :
    ∀ n ∈ listed.2 ++
        [node pinned schema data (Pointer.append path segment) origin required listed.1],
      ∃ segments, n.path = Pointer.join path (segment :: segments) ∧
        Within data segments n.value := by
  intro n hn
  rcases List.mem_append.1 hn with hn | hn
  · obtain ⟨segments, hpath, hwithin⟩ := hbelow n hn
    refine ⟨segments, ?_, hwithin⟩
    rw [Pointer.join_cons]
    exact hpath
  · rw [List.mem_singleton.1 hn]
    exact ⟨[], Pointer.append_eq_join path segment, .root data⟩

/-- The first element or a later one. -/
theorem exists_element_of_cons {path : String} {item : Json} {items : List Json} {index : Nat}
    {first rest : List FieldNode}
    (hfirst : ∀ n ∈ first, ∃ segments,
      n.path = Pointer.join path (toString index :: segments) ∧ Within (some item) segments n.value)
    (hrest : ∀ n ∈ rest, ∃ i found segments, items[i]? = some found ∧
      n.path = Pointer.join path (toString (index + 1 + i) :: segments) ∧
      Within (some found) segments n.value) :
    ∀ n ∈ first ++ rest, ∃ i found segments, (item :: items)[i]? = some found ∧
      n.path = Pointer.join path (toString (index + i) :: segments) ∧
      Within (some found) segments n.value := by
  intro n hn
  rcases List.mem_append.1 hn with hn | hn
  · obtain ⟨segments, hpath, hwithin⟩ := hfirst n hn
    exact ⟨0, item, segments, rfl, hpath, hwithin⟩
  · obtain ⟨i, found, segments, hfound, hpath, hwithin⟩ := hrest n hn
    refine ⟨i + 1, found, segments, hfound, ?_, hwithin⟩
    rw [hpath, Nat.add_assoc, Nat.add_comm 1 i]

theorem builtFrom_of_mem_below [Patterns] (pinned : SortedMap Combinator) :
    (∀ schema data path, ∀ n ∈ (below pinned schema data path).2, BuiltFrom data path n) ∧
    (∀ schemas rest items path index, ∀ n ∈ (belowItems pinned schemas rest items path index).2,
      ∃ i item segments, items[i]? = some item ∧
        n.path = Pointer.join path (toString (index + i) :: segments) ∧
        Within (some item) segments n.value) ∧
    (∀ required properties data path,
      ∀ n ∈ (belowProperties pinned required properties data path).2, BuiltFrom data path n) := by
  apply below.mutual_induct pinned
    (fun schema data path => ∀ n ∈ (below pinned schema data path).2, BuiltFrom data path n)
    (fun schemas rest items path index =>
      ∀ n ∈ (belowItems pinned schemas rest items path index).2,
        ∃ i item segments, items[i]? = some item ∧
          n.path = Pointer.join path (toString (index + i) :: segments) ∧
          Within (some item) segments n.value)
    (fun required properties data path =>
      ∀ n ∈ (belowProperties pinned required properties data path).2, BuiltFrom data path n)
  case case1 =>
    intro schema data path kind options hbranches option hfits ih
    rw [below_of_branch hbranches hfits]
    exact ih
  case case2 =>
    intro schema data path kind options hbranches hfits n hn
    rw [below_of_no_fit hbranches hfits] at hn
    cases hn
  case case3 =>
    intro schema data path hbranches ihProperties ihItems n hn
    rw [below_of_no_branches hbranches] at hn
    rcases List.mem_append.1 hn with hn | hn
    · obtain ⟨properties, hproperties, hn⟩ := mem_propertiesBelow hn
      exact ihProperties properties hproperties n hn
    · obtain ⟨items, hitems, hn⟩ := mem_itemsBelow hn
      obtain ⟨i, item, segments, hitem, hpath, hwithin⟩ := ihItems items hitems n hn
      obtain ⟨v, rfl, hv⟩ := Option.bind_eq_some_iff.1 hitems
      cases v <;> cases hv
      rw [Nat.zero_add] at hpath
      exact ⟨_, hpath, .element hitem hwithin⟩
  case case4 =>
    intro schemas rest path index n hn
    rw [belowItems_nil] at hn
    cases hn
  case case5 =>
    intro rest path index item items childPath schema schemas children found _ ih ihRest
    rw [belowItems_cons]
    exact exists_element_of_cons (exists_segments_of_child ih) ihRest
  case case6 =>
    intro rest path index item items childPath children found _ ih ihRest
    rw [belowItems_cons]
    exact exists_element_of_cons (exists_segments_of_child ih) ihRest
  case case7 =>
    intro required data path n hn
    rw [belowProperties_nil] at hn
    cases hn
  case case8 =>
    intro required data path name schema rest childPath member children found _ ih ihRest n hn
    rw [belowProperties_cons] at hn
    rcases List.mem_append.1 hn with hn | hn
    · obtain ⟨segments, hpath, hwithin⟩ := exists_segments_of_child ih n hn
      exact ⟨name :: segments, hpath, .member hwithin⟩
    · exact ihRest n hn

theorem builtFrom_of_get?_build [Patterns] {schema : Json} {data : Option Json} {path : String}
    {n : FieldNode} (h : (build pinned schema data).get? path = some n) : BuiltFrom data "" n := by
  rw [build, SortedMap.get?_ofList] at h
  obtain ⟨hmem, -⟩ := mem_of_nodeAt h
  rcases List.mem_append.1 hmem with hmem | hmem
  · exact (builtFrom_of_mem_below pinned).1 schema data "" n hmem
  · rw [List.mem_singleton.1 hmem]
    exact ⟨[], (Pointer.join_nil "").symm, .root data⟩

/-! ### The finished index -/

/-- The fields of an index form a tree: there is a root, every field stands under its own path, and
every child is a field one segment below its parent. -/
structure Closed (index : FieldIndex) : Prop where
  root : ∃ n, index.get? "" = some n
  path : ∀ path n, index.get? path = some n → n.path = path
  child : ∀ path n, index.get? path = some n → ∀ child ∈ n.children,
    ∃ segment, child = Pointer.append path segment ∧ ∃ m, index.get? child = some m

/-- A path of a listed field is a key of the index. -/
theorem exists_get?_build_of_mem [Patterns] {schema : Json} {data : Option Json} {n : FieldNode}
    (h : n ∈ fields pinned schema data) :
    ∃ m, (build pinned schema data).get? n.path = some m := by
  rw [build, SortedMap.get?_ofList]
  cases hfound : nodeAt n.path (fields pinned schema data) with
  | none =>
    unfold nodeAt at hfound
    rw [SortedMap.lookup_eq_none_iff] at hfound
    have hentry : (n.path, n) ∈ ((fields pinned schema data).map fun n => (n.path, n)).reverse :=
      List.mem_reverse.2 (List.mem_map.2 ⟨n, h, rfl⟩)
    exact absurd rfl (hfound _ hentry)
  | some m => exact ⟨m, hfound⟩

theorem closed_build [Patterns] (schema : Json) (data : Option Json) :
    Closed (build pinned schema data) := by
  refine ⟨⟨_, get?_build_root schema data⟩, ?_, ?_⟩
  · intro path n hn
    exact (isNode_of_get?_build hn).1
  · intro path n hn child hchild
    obtain ⟨segment, hsegment⟩ := nested_build schema data path n hn child hchild
    refine ⟨segment, hsegment, ?_⟩
    -- the field kept at the child's path may be another one than the parent was built with
    rw [build, SortedMap.get?_ofList] at hn
    obtain ⟨hmem, -⟩ := mem_of_nodeAt hn
    obtain ⟨m, hm, hpath⟩ := covered_fields schema data child (Or.inr ⟨n, hmem, hchild⟩)
    rw [← hpath]
    exact exists_get?_build_of_mem hm

/-- A field without branches that takes no members lists the elements of its data. -/
theorem IsNode.children_of_array [Patterns] {n : FieldNode} (h : IsNode pinned n)
    (hcombinator : n.combinator = none) (harray : n.type.includes .array = true)
    (hobject : n.type.includes .object = false) :
    n.children = (List.range (elements n.value).length).map (Pointer.appendIndex n.path) := by
  have htype : n.type = fieldType n.schema n.value := by
    obtain ⟨origin, required, heq⟩ := h
    exact congrArg FieldNode.type heq
  have hbranches : branches? (membersOf (some n.schema)) = none := by
    rw [h.combinator_eq] at hcombinator
    have hown := ((Option.orElse_eq_none _ _).1 hcombinator).1
    exact Option.map_eq_none_iff.1 hown
  rw [htype] at harray hobject
  have hproperties : propertiesBelow pinned n.schema n.value n.path = ([], []) := by
    rw [propertiesBelow, hobject]
    rfl
  rw [h.children_eq, below_of_no_branches hbranches, hproperties, itemsBelow, if_pos harray,
    elements]
  cases hitems : n.value.bind items? with
  | none => rfl
  | some items =>
    show (belowItems pinned _ _ items n.path 0).1 = _
    rw [children_belowItems, List.range_eq_range']
    rfl

end FieldTree

namespace Defaults

open FieldTree

theorem SameForm.closed {index other : FieldIndex} (h : SameForm index other)
    (hclosed : Closed other) : Closed index := by
  refine ⟨?_, ?_, ?_⟩
  · obtain ⟨m, hm⟩ := hclosed.root
    obtain ⟨n, hn, -⟩ := h.symm.exists_get? hm
    exact ⟨n, hn⟩
  · intro path n hn
    obtain ⟨m, hm, hform⟩ := h.exists_get? hn
    have hpath : (form m).path = (form n).path := by rw [hform]
    exact hpath.symm.trans (hclosed.path path m hm)
  · intro path n hn child hchild
    obtain ⟨m, hm, hform⟩ := h.exists_get? hn
    have hchildren : (form m).children = (form n).children := by rw [hform]
    obtain ⟨segment, hsegment, found, hfound⟩ :=
      hclosed.child path m hm child (hchildren.symm ▸ hchild)
    obtain ⟨field, hfield, -⟩ := h.symm.exists_get? hfound
    exact ⟨segment, hsegment, field, hfield⟩

end Defaults

namespace Pipeline

open Json Schema FieldTree Defaults

/-- The index of a run is a closed tree. A field of it that offers no branches and takes elements
but no members has a child for each element of the data that it was built from, which stand at its
path in the data of the run. -/
theorem run_closed [Patterns] (schema : Json) (data : Option Json) (selections : Selections) :
    ∃ m, run .default schema data selections = .ok m ∧ Closed m.index ∧
      ∀ path n, m.index.get? path = some n → n.combinator = none →
        n.type.includes .array = true → n.type.includes .object = false →
        ∃ segments built, path = Pointer.build segments ∧
          (plainIndex (Schema.prepare schema) data selections).get? path = some built ∧
          n = { built with value := n.value } ∧ Within data segments built.value ∧
          n.children =
            (List.range (elements built.value).length).map (Pointer.appendIndex path) := by
  refine ⟨_, run_default schema data selections, ?_, ?_⟩
  · exact (sameForm_plainModel _ data selections).closed (closed_build _ _)
  · intro path n hn hcombinator harray hobject
    rw [index_plainModel] at hn
    obtain ⟨built, hbuilt, heq⟩ := get?_seededIndex hn
    obtain ⟨hpath, hnode⟩ := isNode_of_get?_build hbuilt
    obtain ⟨segments, hsegments, hwithin⟩ := builtFrom_of_get?_build hbuilt
    rw [heq] at hcombinator harray hobject
    have hchildren := hnode.children_of_array hcombinator harray hobject
    rw [hpath] at hchildren hsegments
    rw [Pointer.join_empty] at hsegments
    refine ⟨segments, built, hsegments, hbuilt, ?_, hwithin, ?_⟩
    · rw [heq]
    · rw [heq]
      exact hchildren

end Pipeline
end SchemaForm
