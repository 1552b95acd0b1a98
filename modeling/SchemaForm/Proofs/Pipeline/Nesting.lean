import Mathlib.Data.Option.Basic
import SchemaForm.Proofs.Pipeline.Tree

/-!
# Children of fields

The children of a field stand one segment below it. In the finished index every listed child is a
field, and what it shows is what one step of the walk reaches from its parent: an element of the
parent's data, or a member of them.
-/

namespace SchemaForm

namespace FieldTree

open Json Schema

variable {pinned : SortedMap Combinator}

/-! ### The paths of children -/

theorem children_belowProperties [Patterns] (required : List String)
    (properties : List (String × Json)) (data : Option Json) (path : String) :
    (belowProperties pinned required properties data path).1 =
      (Entries.keys properties).map (Pointer.append path) := by
  induction properties with
  | nil =>
    rw [belowProperties_nil]
    rfl
  | cons property rest ih =>
    rw [belowProperties_cons]
    exact congrArg (Pointer.append path property.1 :: ·) ih

theorem children_belowItems [Patterns] (schemas : List Json) (rest : Json) (items : List Json)
    (path : String) (index : Nat) :
    (belowItems pinned schemas rest items path index).1 =
      (List.range' index items.length).map (Pointer.appendIndex path) := by
  induction items generalizing schemas index with
  | nil =>
    rw [belowItems_nil]
    rfl
  | cons item items ih =>
    rw [belowItems_cons]
    exact congrArg (Pointer.appendIndex path index :: ·) (ih schemas.tail (index + 1))

/-- Below a field stands what its settled schema describes. -/
theorem below_eq_of_settled [Patterns] (schema : Json) (data : Option Json) (path : String) :
    below pinned schema data path =
      match settled schema data with
      | none => ([], [])
      | some schema =>
        join (propertiesBelow pinned schema data path) (itemsBelow pinned schema data path) := by
  induction schema using settled.induct data with
  | case1 schema hbranches =>
    rw [below_of_no_branches hbranches, settled_of_no_branches hbranches]
  | case2 schema kind options hbranches hfits =>
    rw [below_of_no_fit hbranches hfits, settled_of_no_fit hbranches hfits]
  | case3 schema kind options hbranches option hfits ih =>
    rw [below_of_branch hbranches hfits, settled_of_branch hbranches hfits, ih]

/-! ### One step of the walk -/

/-- The walk finds elements by their numbers. -/
theorem elementFrom_eq_some {segment : String} {rest : Json} {schemas items : List Json}
    {index : Nat} {found : Json × Json}
    (h : elementFrom segment rest schemas items index = some found) :
    ∃ i, segment = toString (index + i) ∧ items[i]? = some found.2 := by
  induction items generalizing schemas index with
  | nil => cases h
  | cons item items ih =>
    rw [elementFrom] at h
    by_cases hsegment : toString index = segment
    · rw [if_pos hsegment] at h
      cases h
      exact ⟨0, hsegment.symm, rfl⟩
    · rw [if_neg hsegment] at h
      obtain ⟨i, hnumber, hitem⟩ := ih h
      refine ⟨i + 1, ?_, hitem⟩
      rw [hnumber, Nat.add_assoc, Nat.add_comm 1 i]

theorem exists_elementFrom (rest : Json) (schemas : List Json) (index : Nat)
    {items : List Json} {i : Nat} (hi : i < items.length) :
    ∃ found, elementFrom (toString (index + i)) rest schemas items index = some found := by
  induction items generalizing schemas index i with
  | nil => cases hi
  | cons item items ih =>
    rw [elementFrom]
    by_cases hsegment : toString index = toString (index + i)
    · rw [if_pos hsegment]
      exact ⟨_, rfl⟩
    · rw [if_neg hsegment]
      cases i with
      | zero => exact absurd rfl hsegment
      | succ i =>
        have hlater := ih schemas.tail (index + 1) (Nat.lt_of_succ_lt_succ hi)
        rwa [Nat.add_assoc, Nat.add_comm 1 i] at hlater

/-- One step leads to an element of the data, by its number, or to a member of them. -/
theorem value_of_step [Patterns] {segment : String} {schema : Json} {data : Option Json}
    {found : Json × Option Json} (h : fragmentAt [segment] schema data = some found) :
    (∃ items i, data = some (.arr items) ∧ segment = toString i ∧ i < items.length ∧
      found.2 = items[i]?) ∨ found.2 = data.bind (get? segment) := by
  rw [fragmentAt] at h
  obtain ⟨schema', -, h⟩ := Option.bind_eq_some_iff.1 h
  cases helement : elementAt segment schema' data with
  | some place =>
    rw [helement] at h
    cases h
    left
    unfold elementAt at helement
    split at helement
    · obtain ⟨items, hitems, hfound⟩ := Option.bind_eq_some_iff.1 helement
      obtain ⟨item, hitem, hplace⟩ := Option.map_eq_some_iff.1 hfound
      obtain ⟨i, hnumber, hget⟩ := elementFrom_eq_some hitem
      obtain ⟨v, hdata, hv⟩ := Option.bind_eq_some_iff.1 hitems
      cases v <;> cases hv
      refine ⟨items, i, hdata, ?_, ?_, ?_⟩
      · rw [hnumber, Nat.zero_add]
      · exact (List.getElem?_eq_some_iff.1 hget).1
      · rw [hget, ← hplace]
    · cases helement
  | none =>
    rw [helement] at h
    right
    obtain ⟨place, hplace, hfound⟩ := Option.bind_eq_some_iff.1 h
    cases hfound
    unfold propertyAt at hplace
    split at hplace
    · obtain ⟨property, -, heq⟩ := Option.map_eq_some_iff.1 hplace
      rw [← heq]
    · cases hplace

theorem exists_property_of_mem [Patterns] {schema : Json} {data : Option Json} {path child : String}
    (h : child ∈ (propertiesBelow pinned schema data path).1) :
    ∃ segment, child = Pointer.append path segment ∧ propertyAt segment schema data ≠ none := by
  unfold propertiesBelow at h
  split at h
  · next hincludes =>
    split at h
    · next properties hproperties =>
      rw [children_belowProperties] at h
      obtain ⟨name, hname, rfl⟩ := List.mem_map.1 h
      refine ⟨name, rfl, ?_⟩
      rw [propertyAt, if_pos hincludes, hproperties, Option.bind_some]
      intro hnone
      exact Entries.get?_eq_none_iff.1 (Option.map_eq_none_iff.1 hnone) hname
    · cases h
  · cases h

theorem exists_element_of_mem [Patterns] {schema : Json} {data : Option Json} {path child : String}
    (h : child ∈ (itemsBelow pinned schema data path).1) :
    ∃ segment, child = Pointer.append path segment ∧ elementAt segment schema data ≠ none := by
  unfold itemsBelow at h
  split at h
  · next hincludes =>
    split at h
    · next items hitems =>
      rw [children_belowItems] at h
      obtain ⟨i, hi, rfl⟩ := List.mem_map.1 h
      have hlt : i < items.length := by
        have := List.mem_range'_1.1 hi
        omega
      obtain ⟨found, hfound⟩ := exists_elementFrom (itemSchema schema)
        ((schema.getItems? "prefixItems").getD []) 0 hlt
      rw [Nat.zero_add] at hfound
      refine ⟨toString i, rfl, ?_⟩
      rw [elementAt, if_pos hincludes, hitems, Option.bind_some, hfound]
      exact Option.some_ne_none _
    · cases h
  · cases h

/-- A listed child stands one segment below its parent, and one step leads to it. -/
theorem exists_step_of_mem_children [Patterns] {schema : Json} {data : Option Json}
    {path child : String} (h : child ∈ (below pinned schema data path).1) :
    ∃ segment, child = Pointer.append path segment ∧ fragmentAt [segment] schema data ≠ none := by
  rw [below_eq_of_settled] at h
  cases hsettled : settled schema data with
  | none =>
    rw [hsettled] at h
    cases h
  | some schema' =>
    rw [hsettled] at h
    rcases List.mem_append.1 h with h | h
    · obtain ⟨segment, hchild, hproperty⟩ := exists_property_of_mem h
      refine ⟨segment, hchild, ?_⟩
      rw [fragmentAt, hsettled, Option.bind_some]
      cases elementAt segment schema' data with
      | some place => exact Option.some_ne_none _
      | none =>
        obtain ⟨place, hplace⟩ := Option.ne_none_iff_exists'.1 hproperty
        rw [hplace]
        exact Option.some_ne_none _
    · obtain ⟨segment, hchild, helement⟩ := exists_element_of_mem h
      refine ⟨segment, hchild, ?_⟩
      obtain ⟨place, hplace⟩ := Option.ne_none_iff_exists'.1 helement
      rw [fragmentAt, hsettled, Option.bind_some, hplace]
      exact Option.some_ne_none _

/-! ### The walk goes on -/

theorem fragmentAt_append_of_none [Patterns] {segments : List String} {schema : Json}
    {data : Option Json} (h : fragmentAt segments schema data = none) (rest : List String) :
    fragmentAt (segments ++ rest) schema data = none := by
  induction segments generalizing schema data with
  | nil => cases h
  | cons segment segments ih =>
    rw [List.cons_append, fragmentAt]
    rw [fragmentAt] at h
    cases hsettled : settled schema data with
    | none => rfl
    | some schema' =>
      rw [hsettled, Option.bind_some] at h
      obtain ⟨helement, hproperty⟩ := (Option.orElse_eq_none _ _).1 h
      rw [Option.bind_some]
      refine (Option.orElse_eq_none _ _).2 ⟨?_, ?_⟩
      · cases hplace : elementAt segment schema' data with
        | none => rfl
        | some place =>
          rw [hplace] at helement
          exact ih helement
      · cases hplace : propertyAt segment schema' data with
        | none => rfl
        | some place =>
          rw [hplace] at hproperty
          exact ih hproperty

/-- The walk from where a walk has led. -/
theorem fragmentAt_append [Patterns] {segments : List String} {schema : Json} {data : Option Json}
    {found : Json × Option Json} (h : fragmentAt segments schema data = some found)
    {rest : List String} {last : Json × Option Json}
    (hrest : fragmentAt rest found.1 found.2 = some last) :
    fragmentAt (segments ++ rest) schema data = some last := by
  induction segments generalizing schema data with
  | nil =>
    cases h
    exact hrest
  | cons segment segments ih =>
    rw [List.cons_append, fragmentAt]
    rw [fragmentAt] at h
    cases hsettled : settled schema data with
    | none =>
      rw [hsettled] at h
      cases h
    | some schema' =>
      rw [hsettled, Option.bind_some] at h
      rw [Option.bind_some]
      -- a place that leads nowhere leads nowhere further, so the same place is taken
      cases helement : (elementAt segment schema' data).bind fun place =>
          fragmentAt segments place.1 place.2 with
      | some found' =>
        rw [helement] at h
        cases h
        obtain ⟨place, hplace, hfound⟩ := Option.bind_eq_some_iff.1 helement
        rw [hplace, Option.bind_some, ih hfound]
        rfl
      | none =>
        rw [helement] at h
        obtain ⟨place, hplace, hfound⟩ := Option.bind_eq_some_iff.1 h
        have hnone : ((elementAt segment schema' data).bind fun place =>
            fragmentAt (segments ++ rest) place.1 place.2) = none := by
          rw [Option.bind_eq_none_iff]
          intro place hplace
          exact fragmentAt_append_of_none (Option.bind_eq_none_iff.1 helement place hplace) rest
        rw [hnone, hplace, Option.bind_some, ih hfound]
        rfl

/-! ### The finished index -/

/-- Every field stands at a canonical pointer. -/
theorem exists_segments_of_get?_build [Patterns] {schema : Json} {data : Option Json}
    {path : String} {n : FieldNode} (h : (build pinned schema data).get? path = some n) :
    ∃ segments, path = Pointer.build segments := by
  rw [build, SortedMap.get?_ofList] at h
  obtain ⟨hmem, hpath⟩ := mem_of_nodeAt h
  rcases List.mem_append.1 hmem with hmem | hmem
  · obtain ⟨⟨segment, rest, -, hjoin⟩, -⟩ := (liesBelow_of_mem_below pinned).1 schema data "" n hmem
    refine ⟨segment :: rest, ?_⟩
    rw [← hpath, hjoin, Pointer.join_empty]
  · refine ⟨[], ?_⟩
    rw [← hpath, List.mem_singleton.1 hmem]
    rfl

/-- The root is a field. -/
theorem get?_build_root [Patterns] (schema : Json) (data : Option Json) :
    (build pinned schema data).get? "" =
      some (node pinned schema data "" .root false (below pinned schema data "").1) := by
  rw [build, SortedMap.get?_ofList]
  show nodeAt "" ((below pinned schema data "").2 ++ _) = _
  rw [nodeAt_append]
  rfl

theorem IsNode.children_eq [Patterns] {n : FieldNode} (h : IsNode pinned n) :
    n.children = (below pinned n.schema n.value n.path).1 := by
  obtain ⟨origin, required, heq⟩ := h
  exact congrArg FieldNode.children heq

/-- The children of every field stand one segment below it. -/
def Nested (index : FieldIndex) : Prop :=
  ∀ path n, index.get? path = some n → ∀ child ∈ n.children,
    ∃ segment, child = Pointer.append path segment

theorem nested_build [Patterns] (schema : Json) (data : Option Json) :
    Nested (build pinned schema data) := by
  intro path n hn child hchild
  obtain ⟨hpath, hnode⟩ := isNode_of_get?_build hn
  rw [hnode.children_eq, hpath] at hchild
  obtain ⟨segment, hsegment, -⟩ := exists_step_of_mem_children hchild
  exact ⟨segment, hsegment⟩

/-- A listed child is a field, and shows what one step leads to from its parent. -/
theorem exists_child_build [Patterns] {schema : Document} {data : Option Json}
    {segments : List String} {segment : String} {n : FieldNode}
    (hn : (build pinned schema data).get? (Pointer.build segments) = some n)
    (hchild : Pointer.append (Pointer.build segments) segment ∈ n.children) :
    ∃ child, (build pinned schema data).get? (Pointer.build (segments ++ [segment])) = some child ∧
      fragmentAt [segment] n.schema n.value = some (child.schema, child.value) := by
  obtain ⟨hpath, hnode⟩ := isNode_of_get?_build hn
  have hparent : ((build pinned schema data).get? (Pointer.build segments)).map place = _ :=
    get?_build schema data segments
  rw [hn] at hparent
  rw [hnode.children_eq, hpath] at hchild
  obtain ⟨segment', hsegment, hstep⟩ := exists_step_of_mem_children hchild
  rw [← Pointer.append_injective hsegment] at hstep
  obtain ⟨found, hfound⟩ := Option.ne_none_iff_exists'.1 hstep
  have hwalk : ((build pinned schema data).get? (Pointer.build (segments ++ [segment]))).map place =
      _ := get?_build schema data (segments ++ [segment])
  rw [fragmentAt_append hparent.symm hfound] at hwalk
  obtain ⟨child, hget, hplace⟩ := Option.map_eq_some_iff.1 hwalk
  exact ⟨child, hget, hfound.trans (congrArg some hplace.symm)⟩

/-- A listed child is a field, and shows an element of what its parent shows, or a member of it. -/
def Consistent (index : FieldIndex) : Prop :=
  ∀ segments segment n, index.get? (Pointer.build segments) = some n →
    Pointer.append (Pointer.build segments) segment ∈ n.children →
    ∃ child, index.get? (Pointer.build (segments ++ [segment])) = some child ∧
      ((∃ items i, n.value = some (.arr items) ∧ segment = toString i ∧ i < items.length ∧
        child.value = items[i]?) ∨ child.value = n.value.bind (get? segment))

theorem consistent_build [Patterns] (schema : Document) (data : Option Json) :
    Consistent (build pinned schema data) := by
  intro segments segment n hn hchild
  obtain ⟨child, hget, hstep⟩ := exists_child_build hn hchild
  exact ⟨child, hget, value_of_step hstep⟩

end FieldTree
end SchemaForm
