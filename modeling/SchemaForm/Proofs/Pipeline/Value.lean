import Mathlib.Data.List.Zip
import SchemaForm.Proofs.Pipeline.Seeding
import SchemaForm.Proofs.Pipeline.Selection
import SchemaForm.Proofs.Pipeline.Situated
import SchemaForm.Regex.Engine

/-!
# The values of fields

Seeding sets the value of a field when it sets the data at its path, so the two agree wherever it
goes down by the names or the numbers of the children. Below a field that it passes by, which serves
neither members nor elements, the fields keep the values that they had, and so do the data, unless
the field took its default. In these two places every field holds the data at its path.
-/

namespace SchemaForm

namespace Defaults

open Json FieldTree

variable {index : FieldIndex} {path : String} {node : FieldNode} {data : Option Json}
  {seed : String → Option Json → Seeded (Option Json)}

/-! ### What filling in a field writes -/

/-- A field writes what its children write, and its own value last. -/
theorem values_seedField (hs : Settles seed) (hapart : KeysApart node.children) (path : String)
    (data : Option Json) :
    ∃ front, (seedField seed node path data).values =
        front ++ [(path, (seedField seed node path data).result)] ∧
      ∀ entry ∈ front, ∃ child ∈ node.children, ∃ inner, entry ∈ (seed child inner).values := by
  cases hmembers : servesMembers node with
  | true =>
    rw [seedField_of_members hmembers]
    refine ⟨_, rfl, fun entry hentry => ?_⟩
    rw [values_seedMembers hs hapart] at hentry
    obtain ⟨child, hchild, hentry⟩ := List.mem_flatMap.1 hentry
    exact ⟨child, hchild, _, hentry⟩
  | false =>
    cases helements : servedElements? node data with
    | some items =>
      rw [seedField_of_elements hmembers helements]
      refine ⟨_, rfl, fun entry hentry => ?_⟩
      rw [values_seedElements] at hentry
      obtain ⟨place, hplace, hentry⟩ := List.mem_flatMap.1 hentry
      exact ⟨place.1, (List.of_mem_zip hplace).1, _, hentry⟩
    | none =>
      rw [seedField_of_kept hmembers helements]
      exact ⟨[], rfl, fun entry hentry => by cases hentry⟩

/-- Filling in a field writes at and below its path. -/
theorem exists_join_of_mem_values (h : Nested index) {fuel : Nat} {entry : String × Option Json}
    (hentry : entry ∈ (seedAt index fuel path data).values) :
    ∃ segments, entry.1 = Pointer.join path segments := by
  induction fuel generalizing path data with
  | zero => cases hentry
  | succ fuel ih =>
    cases hnode : index.get? path with
    | none =>
      rw [seedAt_of_none hnode] at hentry
      cases hentry
    | some node =>
      obtain ⟨front, hvalues, hfront⟩ := values_seedField (settles_seedAt h fuel)
        (keysApart_of_nested h hnode) path data
      rw [seedAt_of_some hnode, hvalues] at hentry
      rcases List.mem_append.1 hentry with hentry | hentry
      · obtain ⟨child, hchild, inner, hentry⟩ := hfront entry hentry
        obtain ⟨segment, rfl⟩ := h path node hnode child hchild
        obtain ⟨segments, hpath⟩ := ih hentry
        exact ⟨segment :: segments, hpath.trans (Pointer.join_cons path segment segments).symm⟩
      · rw [List.mem_singleton.1 hentry]
        exact ⟨[], (Pointer.join_nil path).symm⟩

/-- A child writes nothing below its siblings. -/
theorem written?_sibling (h : Nested index) {segment other : String} (hne : other ≠ segment)
    (rest : List String) (data : Option Json) :
    written? (Pointer.join path (segment :: rest))
      (fill index (Pointer.append path other) data).values = none := by
  rw [written?_eq_none_iff]
  intro entry hentry heq
  obtain ⟨segments, hpath⟩ := exists_join_of_mem_values h hentry
  rw [hpath, ← Pointer.join_cons] at heq
  have hsegments := Pointer.join_injective heq
  cases hsegments
  exact hne rfl

/-- What one part of several writes at a path where the others write nothing. -/
theorem written?_flatMap {β : Type} {parts : List β} {f : β → List (String × Option Json)}
    {part : β} (hpart : part ∈ parts)
    (hothers : ∀ other ∈ parts, other ≠ part → written? path (f other) = none) :
    written? path (parts.flatMap f) = written? path (f part) := by
  induction parts with
  | nil => cases hpart
  | cons first parts ih =>
    rw [List.flatMap_cons, written?_append]
    have hrest := fun other hother => hothers other (List.mem_cons_of_mem first hother)
    by_cases hmem : part ∈ parts
    · rw [ih hmem hrest]
      by_cases hfirst : first = part
      · subst hfirst
        cases written? path (f first) <;> rfl
      · rw [hothers first List.mem_cons_self hfirst]
        cases written? path (f part) <;> rfl
    · obtain rfl : part = first := (List.mem_cons.1 hpart).resolve_right hmem
      have hnone : written? path (parts.flatMap f) = none := by
        rw [written?_eq_none_iff]
        intro entry hentry
        obtain ⟨other, hother, hin⟩ := List.mem_flatMap.1 hentry
        have hne : other ≠ part := fun heq => hmem (heq ▸ hother)
        exact written?_eq_none_iff.1 (hrest other hother hne) entry hin
      rw [hnone]
      rfl

theorem written?_concat_self (path : String) (front : List (String × Option Json))
    (value : Option Json) : written? path (front ++ [(path, value)]) = some value := by
  rw [written?_append, written?_singleton, if_pos rfl]
  rfl

theorem written?_concat_below (path segment : String) (rest : List String)
    (front : List (String × Option Json)) (value : Option Json) :
    written? (Pointer.join path (segment :: rest)) (front ++ [(path, value)]) =
      written? (Pointer.join path (segment :: rest)) front := by
  have hne : path ≠ Pointer.join path (segment :: rest) := by
    intro heq
    have hsegments := Pointer.join_injective ((Pointer.join_nil path).trans heq)
    cases hsegments
  rw [written?_append, written?_singleton, if_neg hne]
  rfl

/-- The last value that filling in a field writes is its own. -/
theorem written?_fill_self (h : Nested index) (hnode : index.get? path = some node)
    (data : Option Json) :
    written? path (fill index path data).values = some (fill index path data).result := by
  obtain ⟨front, hvalues, -⟩ := values_seedField (settles_fill h) (keysApart_of_nested h hnode) path
    data
  rw [fill_of_some h hnode, hvalues]
  exact written?_concat_self _ _ _

/-- Below a listed member a field writes what filling in the member writes. -/
theorem written?_fill_of_mem (h : Nested index) (hnode : index.get? path = some node)
    (hmembers : servesMembers node = true) {segment : String}
    (hchild : Pointer.append path segment ∈ node.children) (data : Option Json)
    (rest : List String) :
    written? (Pointer.join path (segment :: rest)) (fill index path data).values =
      written? (Pointer.join path (segment :: rest))
        (fill index (Pointer.append path segment)
          (Entries.get? segment (Schema.membersOf (given node data)))).values := by
  rw [fill_of_some h hnode, seedField_of_members hmembers]
  refine (written?_concat_below _ _ _ _ _).trans ?_
  rw [values_seedMembers (settles_fill h) (keysApart_of_nested h hnode)]
  refine (written?_flatMap hchild ?_).trans ?_
  · intro other hother hne
    obtain ⟨segment', rfl⟩ := h path node hnode other hother
    refine written?_sibling h ?_ rest _
    rintro rfl
    exact hne rfl
  · rw [childKey_append]

/-- Below an element a field writes what filling in the element writes, if the children are the
elements in their order. -/
theorem written?_fill_of_element (h : Nested index) (hnode : index.get? path = some node)
    (hmembers : servesMembers node = false) {items : List Json}
    (hitems : servedElements? node data = some items)
    (horder : ∀ i child, node.children[i]? = some child → child = Pointer.appendIndex path i)
    {i : Nat} {child : String} {item : Json} (hchild : node.children[i]? = some child)
    (hitem : items[i]? = some item) (rest : List String) :
    written? (Pointer.join path (toString i :: rest)) (fill index path data).values =
      written? (Pointer.join path (toString i :: rest))
        (fill index (Pointer.append path (toString i)) (some item)).values := by
  rw [fill_of_some h hnode, seedField_of_elements hmembers hitems]
  refine (written?_concat_below _ _ _ _ _).trans ?_
  rw [values_seedElements]
  obtain rfl := horder i child hchild
  have hplace : (node.children.zip items)[i]? = some (Pointer.appendIndex path i, item) := by
    rw [List.getElem?_zip_eq_some]
    exact ⟨hchild, hitem⟩
  refine written?_flatMap (List.mem_of_getElem? hplace) ?_
  rintro ⟨other, inner⟩ hother hne
  obtain ⟨j, hj⟩ := List.getElem?_of_mem hother
  obtain ⟨hchildj, hitemj⟩ := List.getElem?_zip_eq_some.1 hj
  obtain rfl := horder j other hchildj
  refine written?_sibling h ?_ rest _
  intro heq
  obtain rfl := Pointer.toString_index_injective heq
  rw [hj] at hplace
  exact hne (Option.some.inj hplace)

/-- A field that keeps its data writes nothing below itself. -/
theorem written?_fill_of_kept (h : Nested index) (hnode : index.get? path = some node)
    (hmembers : servesMembers node = false) (hitems : servedElements? node data = none)
    (segment : String) (rest : List String) :
    written? (Pointer.join path (segment :: rest)) (fill index path data).values = none := by
  rw [fill_of_some h hnode, seedField_of_kept hmembers hitems]
  exact written?_concat_below path segment rest [] _

/-! ### Where seeding goes -/

/-- Every element has a number that a segment can give. -/
def Addressable (items : List Json) : Prop := items.length ≤ Pointer.maxIndex + 1

theorem Addressable.index?_eq {items : List Json} (h : Addressable items) {i : Nat}
    (hi : i < items.length) : Pointer.index? (toString i) = some i := by
  apply Pointer.index?_toString
  unfold Addressable at h
  omega

/-- The fields that seeding reaches at the place of their data: from the root down the names of
members, and the numbers of elements where the children of an array are its elements in order. -/
inductive Served (index : FieldIndex) : List String → Prop
  | root : Served index []
  | member {segments : List String} {segment : String} {node : FieldNode}
      (above : Served index segments)
      (field : index.get? (Pointer.build segments) = some node)
      (members : servesMembers node = true)
      (listed : Pointer.append (Pointer.build segments) segment ∈ node.children) :
      Served index (segments ++ [segment])
  | element {segments : List String} {node : FieldNode} {items : List Json} {i : Nat}
      (above : Served index segments)
      (field : index.get? (Pointer.build segments) = some node)
      (noMembers : servesMembers node = false)
      (elements : servedElements? node node.value = some items)
      (addressable : Addressable items)
      (order : ∀ j child, node.children[j]? = some child →
        child = Pointer.appendIndex (Pointer.build segments) j)
      (child : i < node.children.length) (element : i < items.length) :
      Served index (segments ++ [toString i])

/-- The fields below one that seeding reaches and passes by: it serves neither members nor elements
and has the value that it had `before`. Below an array only elements count, which have a value. -/
inductive PassedBy (before index : FieldIndex) : List String → Prop
  | start {segments : List String} {node old : FieldNode}
      (above : Served index segments)
      (field : index.get? (Pointer.build segments) = some node)
      (noMembers : servesMembers node = false)
      (noElements : servedElements? node node.value = none)
      (fieldBefore : before.get? (Pointer.build segments) = some old)
      (same : old.value = node.value) : PassedBy before index segments
  | down {segments : List String} {segment : String} {node child : FieldNode}
      (above : PassedBy before index segments)
      (field : index.get? (Pointer.build segments) = some node)
      (listed : Pointer.append (Pointer.build segments) segment ∈ node.children)
      (childField : index.get? (Pointer.build (segments ++ [segment])) = some child)
      (present : ∀ items, node.value = some (.arr items) →
        Addressable items ∧ child.value ≠ none) :
      PassedBy before index (segments ++ [segment])

/-- At a path stands what filling in its field makes of `inner`, and what is written at and below
the path is what that writes. -/
structure FilledWith (index : FieldIndex) (data : Option Json) (segments : List String)
    (inner : Option Json) : Prop where
  result : atSegments? (fill index "" data).result segments =
    (fill index (Pointer.build segments) inner).result
  values : ∀ rest,
    written? (Pointer.join (Pointer.build segments) rest) (fill index "" data).values =
      written? (Pointer.join (Pointer.build segments) rest)
        (fill index (Pointer.build segments) inner).values

theorem filledWith_root (index : FieldIndex) (data : Option Json) : FilledWith index data [] data :=
  ⟨rfl, fun _ => rfl⟩

theorem FilledWith.member {segments : List String} {inner : Option Json}
    (hfilled : FilledWith index data segments inner) (h : Nested index)
    (hnode : index.get? (Pointer.build segments) = some node)
    (hmembers : servesMembers node = true) {segment : String}
    (hchild : Pointer.append (Pointer.build segments) segment ∈ node.children) :
    FilledWith index data (segments ++ [segment])
      (Entries.get? segment (Schema.membersOf (given node inner))) := by
  constructor
  · rw [atSegments?_append, hfilled.result, ← Pointer.append_build]
    exact child?_fill_of_mem h hnode hmembers hchild inner
  · intro rest
    rw [← Pointer.append_build, ← Pointer.join_cons, hfilled.values]
    exact written?_fill_of_mem h hnode hmembers hchild inner rest

/-- Where elements are served before seeding, they are served after it, as many as they were. -/
theorem servedElements?_fill (h : Nested index) (hnode : index.get? path = some node)
    (hmembers : servesMembers node = false) (data : Option Json) :
    servedElements? node (fill index path data).result =
      (servedElements? node data).map fun items =>
        (seedElements (fill index) node.children items).result := by
  rw [fill_of_some h hnode]
  cases helements : servedElements? node data with
  | some items =>
    rw [seedField_of_elements hmembers helements]
    exact servedElements?_arr helements _
  | none =>
    rw [seedField_of_kept hmembers helements]
    exact servedElements?_given.trans helements

theorem length_seedElements (children : List String) (items : List Json) :
    (seedElements seed children items).result.length = items.length := by
  induction items generalizing children with
  | nil => rw [seedElements_nil]
  | cons item items ih =>
    cases children with
    | nil => rw [seedElements_of_no_children]
    | cons child children => exact congrArg Nat.succ (ih children)

theorem FilledWith.element {segments : List String} {inner : Option Json}
    (hfilled : FilledWith index data segments inner) (h : Nested index)
    (hnode : index.get? (Pointer.build segments) = some node)
    (hmembers : servesMembers node = false) {items : List Json}
    (hitems : servedElements? node inner = some items) (haddressable : Addressable items)
    (horder : ∀ j child, node.children[j]? = some child →
      child = Pointer.appendIndex (Pointer.build segments) j)
    {i : Nat} {item : Json} (hchild : i < node.children.length) (hitem : items[i]? = some item) :
    FilledWith index data (segments ++ [toString i]) (some item) := by
  have hget : node.children[i]? = some (Pointer.appendIndex (Pointer.build segments) i) := by
    have hfound := List.getElem?_eq_getElem hchild
    rw [hfound, horder i _ hfound]
  have hindex := haddressable.index?_eq (List.getElem?_eq_some_iff.1 hitem).1
  constructor
  · rw [atSegments?_append, hfilled.result, ← Pointer.append_build]
    refine (child?_fill_of_element h hnode hmembers hitems hindex).trans ?_
    rw [hitem, hget]
    rfl
  · intro rest
    rw [← Pointer.append_build, ← Pointer.join_cons, hfilled.values]
    exact written?_fill_of_element h hnode hmembers hitems horder hget hitem rest

/-- A field takes the data at its path. -/
theorem FilledWith.value_eq {segments : List String} {inner : Option Json}
    (hfilled : FilledWith index data segments inner) (h : Nested index)
    (hnode : index.get? (Pointer.build segments) = some node) :
    (written? (Pointer.build segments) (fill index "" data).values).getD node.value =
      atSegments? (fill index "" data).result segments := by
  have hvalues := hfilled.values []
  rw [Pointer.join_nil, written?_fill_self h hnode] at hvalues
  rw [hvalues, hfilled.result]
  rfl

/-- Where seeding goes it fills in the field with some data. -/
theorem Served.exists_filledWith {segments : List String} (h : Nested index)
    (hserved : Served (seededIndex index data) segments) :
    ∃ inner, FilledWith index data segments inner := by
  induction hserved with
  | root => exact ⟨data, filledWith_root index data⟩
  | member _ field members listed ih =>
    obtain ⟨inner, hfilled⟩ := ih
    obtain ⟨node, hnode, rfl⟩ := get?_seededIndex field
    exact ⟨_, hfilled.member h hnode members listed⟩
  | @element above _ items i _ field noMembers elements addressable order child element ih =>
    obtain ⟨inner, hfilled⟩ := ih
    obtain ⟨node, hnode, rfl⟩ := get?_seededIndex field
    have helements : servedElements? node (fill index (Pointer.build above) inner).result =
        some items := by
      rw [← hfilled.result, ← hfilled.value_eq h hnode]
      exact elements
    rw [servedElements?_fill h hnode noMembers] at helements
    obtain ⟨items, hitems, rfl⟩ := Option.map_eq_some_iff.1 helements
    rw [length_seedElements] at element
    unfold Addressable at addressable
    rw [length_seedElements] at addressable
    exact ⟨_, hfilled.element h hnode noMembers hitems addressable order child
      (List.getElem?_eq_getElem element)⟩

theorem Served.value_eq {segments : List String} (h : Nested index) {n : FieldNode}
    (hserved : Served (seededIndex index data) segments)
    (hn : (seededIndex index data).get? (Pointer.build segments) = some n) :
    n.value = atSegments? (fill index "" data).result segments := by
  obtain ⟨inner, hfilled⟩ := hserved.exists_filledWith h
  obtain ⟨node, hnode, rfl⟩ := get?_seededIndex hn
  exact hfilled.value_eq h hnode

/-- An element or a member is what its segment selects, if under an array only elements count. -/
theorem eq_child?_of_step {value found : Option Json} {segment : String}
    (hstep : (∃ items i, value = some (.arr items) ∧ segment = toString i ∧ i < items.length ∧
      found = items[i]?) ∨ found = value.bind (get? segment))
    (hpresent : ∀ items, value = some (.arr items) → Addressable items ∧ found ≠ none) :
    found = value.bind (child? segment) := by
  rcases hstep with ⟨items, i, rfl, rfl, hi, rfl⟩ | hmember
  · obtain ⟨haddressable, -⟩ := hpresent items rfl
    show _ = (Pointer.index? (toString i)).bind _
    rw [haddressable.index?_eq hi]
    rfl
  · cases value with
    | none => exact hmember
    | some v =>
      rw [hmember, Option.bind_some, Option.bind_some, child?_eq_get?]
      rintro items rfl
      exact (hpresent items rfl).2 hmember

/-- What seeding passes by holds the data at its path: it is as it was before, and nothing is
written below it. -/
theorem PassedBy.exists_kept {segments : List String} (h : Nested index)
    (hconsistent : Consistent index) (hpassed : PassedBy index (seededIndex index data) segments) :
    ∃ n, (seededIndex index data).get? (Pointer.build segments) = some n ∧
      n.value = atSegments? (fill index "" data).result segments ∧
      (∃ old, index.get? (Pointer.build segments) = some old ∧ old.value = n.value ∧
        old.children = n.children) ∧
      ∀ segment rest, written? (Pointer.join (Pointer.build segments) (segment :: rest))
        (fill index "" data).values = none := by
  induction hpassed with
  | start above field noMembers noElements fieldBefore same =>
    have hvalue := above.value_eq h field
    obtain ⟨inner, hfilled⟩ := above.exists_filledWith h
    obtain ⟨old', hold, rfl⟩ := get?_seededIndex field
    rw [hold] at fieldBefore
    cases fieldBefore
    refine ⟨_, field, hvalue, ⟨_, hold, same, rfl⟩, ?_⟩
    intro segment rest
    rw [hfilled.values]
    refine written?_fill_of_kept h hold noMembers ?_ segment rest
    have hserved := servedElements?_fill h hold noMembers inner
    rw [← hfilled.result, ← hvalue] at hserved
    exact Option.map_eq_none_iff.1 (hserved.symm.trans noElements)
  | @down segments segment _ child _ field listed childField present ih =>
    obtain ⟨n, hn, hvalue, ⟨old, hold, hsame, hchildren⟩, hunwritten⟩ := ih
    rw [hn] at field
    cases field
    rw [← hchildren] at listed
    obtain ⟨old', hold', hstep⟩ := hconsistent _ _ _ hold listed
    obtain ⟨old'', hold'', rfl⟩ := get?_seededIndex childField
    rw [hold'] at hold''
    cases hold''
    have hwritten : written? (Pointer.build (segments ++ [segment]))
        (fill index "" data).values = none := by
      rw [Pointer.build_append]
      exact hunwritten segment []
    rw [hwritten, Option.getD_none] at childField present
    refine ⟨_, childField, ?_, ⟨_, hold', rfl, rfl⟩, ?_⟩
    · show old'.value = _
      rw [atSegments?_append, ← hvalue]
      rw [hsame] at hstep
      exact eq_child?_of_step hstep present
    · intro next rest
      rw [Pointer.build_append, Pointer.join_join]
      exact hunwritten segment (next :: rest)

end Defaults

namespace Pipeline

open Defaults FieldTree Json

theorem consistent_plainIndex [Patterns] (prepared : Document) (data : Option Json)
    (selections : Selections) : Consistent (plainIndex prepared data selections) :=
  consistent_build ((prepared.situated data).chosen selections) data

/-- Every field stands at a canonical pointer; where seeding goes, and below what it passes by
unchanged, its value is the data at its path. -/
theorem value_eq_data_of_served [Patterns] (schema : Document) (data : Option Json)
    (selections : Selections) :
    ∃ m, run .default schema data selections = .ok m ∧
      ∀ path n, m.index.get? path = some n → ∃ segments, path = Pointer.build segments ∧
        (segments ≠ [""] →
          Served m.index segments ∨
            PassedBy (plainIndex (Schema.prepare schema) data selections) m.index segments →
          getAt m.data n.path = .ok n.value) := by
  have hconsistent := consistent_plainIndex schema.prepare data selections
  have hnested := nested_plainIndex (Schema.prepare schema) data selections
  refine ⟨_, run_default schema data selections, ?_⟩
  rw [data_plainModel, index_plainModel]
  intro path n hn
  obtain ⟨node, hnode, hnodeValue⟩ := get?_seededIndex hn
  obtain ⟨segments, rfl⟩ := exists_segments_of_get?_build hnode
  have hpath : n.path = Pointer.build segments := by
    rw [hnodeValue]
    exact (isNode_of_get?_build hnode).1
  refine ⟨segments, rfl, fun hsegments hplace => ?_⟩
  have hvalue : n.value = atSegments? (fill (plainIndex (Schema.prepare schema) data selections) ""
      data).result segments := by
    rcases hplace with hserved | hpassed
    · exact hserved.value_eq hnested hn
    · obtain ⟨n', hn', hvalue, -⟩ := hpassed.exists_kept hnested hconsistent
      rw [hn'] at hn
      cases hn
      exact hvalue
  rw [hpath, getAt_of_parse (Pointer.parse_build hsegments), hvalue]

/-! ### A field that the default of its parent leaves behind -/

/-- The branch with one property. -/
def oneProperty : Json := .obj [("properties", .obj [("a", .empty)])]

/-- An object by default, with a property that a branch describes. -/
def defaultWithBranch : Json :=
  .obj [("default", .obj [("a", int 1)]), ("oneOf", .arr [oneProperty])]

theorem keysUnique_defaultWithBranch : defaultWithBranch.KeysUnique := by
  simp [defaultWithBranch, oneProperty]

theorem prepare_defaultWithBranch : Schema.prepare defaultWithBranch = defaultWithBranch :=
  prepare_eq_self rfl rfl rfl rfl

theorem situated_defaultWithBranch [Patterns] (data : Option Json) :
    situated defaultWithBranch data = defaultWithBranch :=
  situated_of_isFixed rfl data

/-- As long as the branch fits, the root has the property of the branch as its child. -/
theorem plainIndex_defaultWithBranch [Patterns] {data : Option Json}
    (hfits : Schema.accepts oneProperty data = true) :
    (plainIndex defaultWithBranch data .empty).get? "" =
      some (node .empty defaultWithBranch data "" .root false ["/a"]) := by
  have hchildren : (below .empty defaultWithBranch data "").1 = ["/a"] := by
    have hbranches : branches? (Schema.membersOf (some defaultWithBranch)) =
        some (.oneOf, [oneProperty]) := rfl
    have hfitting : fittingBranch? [oneProperty] data = some oneProperty := by
      rw [fittingBranch?, List.find?_cons, hfits]
    rw [below_of_branch hbranches hfitting, below_of_no_branches rfl]
    show (belowProperties _ _ [("a", .empty)] _ _).1 ++ [] = _
    rw [children_belowProperties]
    rfl
  show (build .empty (situated defaultWithBranch data) data).get? "" = _
  rw [situated_defaultWithBranch, get?_build_root, hchildren]

/-- The property of the branch is a field, with the member of the data. -/
theorem exists_child_defaultWithBranch [Patterns] {data : Option Json}
    (hfits : Schema.accepts oneProperty data = true) :
    ∃ child, (plainIndex defaultWithBranch data .empty).get? "/a" = some child := by
  have hconsistent := consistent_plainIndex ⟨_, keysUnique_defaultWithBranch⟩ data .empty
  obtain ⟨child, hchild, -⟩ := hconsistent [] "a" _ (plainIndex_defaultWithBranch hfits)
    List.mem_cons_self
  exact ⟨child, hchild⟩

/-- With data that are an object seeding goes down to the property of the branch. -/
theorem served_defaultWithBranch [Patterns] {data : Option Json}
    (hfits : Schema.accepts oneProperty data = true)
    (hmembers : servesMembers (node .empty defaultWithBranch data "" .root false ["/a"]) = true) :
    ∃ n, (plainModel defaultWithBranch data .empty).index.get? "/a" = some n ∧
      Served (plainModel defaultWithBranch data .empty).index ["a"] := by
  obtain ⟨child, hchild⟩ := exists_child_defaultWithBranch hfits
  obtain ⟨value, hroot⟩ := exists_get?_plainModel (plainIndex_defaultWithBranch hfits)
  obtain ⟨value', hn⟩ := exists_get?_plainModel hchild
  exact ⟨_, hn, Served.root.member hroot hmembers List.mem_cons_self⟩

theorem value_eq_data_of_served_member :
    ∃ m n, run .default defaultWithBranch (some (.obj [("a", int 2)])) .empty = .ok m ∧
      m.index.get? "/a" = some n ∧ getAt m.data n.path = .ok n.value := by
  obtain ⟨m, hrun, hvalue⟩ := value_eq_data_of_served
    ⟨defaultWithBranch, keysUnique_defaultWithBranch⟩ (some (.obj [("a", int 2)])) .empty
  obtain rfl := eq_plainModel_of_run prepare_defaultWithBranch hrun
  obtain ⟨n, hn, hserved⟩ := served_defaultWithBranch
    (rfl : Schema.accepts oneProperty (some (.obj [("a", int 2)])) = true) rfl
  obtain ⟨segments, hsegments, hplaced⟩ := hvalue "/a" n hn
  obtain rfl : ["a"] = segments := Pointer.build_injective hsegments
  exact ⟨_, n, hrun, hn, hplaced (by decide) (Or.inl hserved)⟩

/-- The root takes its default, and the field of its member stays without a value. -/
theorem default_leaves_child_behind :
    ∃ m n, run .default defaultWithBranch none .empty = .ok m ∧ m.index.get? "/a" = some n ∧
      getAt m.data n.path ≠ .ok n.value := by
  have hfits : Schema.accepts oneProperty none = true := rfl
  have hroot := plainIndex_defaultWithBranch hfits
  have hfill : fill (plainIndex defaultWithBranch none .empty) "" none =
      ⟨some (.obj [("a", int 1)]), [("", some (.obj [("a", int 1)]))]⟩ := by
    rw [fill_of_some (nested_plainIndex _ _ _) hroot, seedField_of_kept rfl rfl]
    rfl
  have hconsistent := consistent_plainIndex ⟨_, keysUnique_defaultWithBranch⟩ none .empty
  obtain ⟨child, hchild, hstep⟩ := hconsistent [] "a" _ hroot List.mem_cons_self
  have hpath : child.path = "/a" := (isNode_of_get?_build hchild).1
  have hvalue : child.value = none := by
    rcases hstep with ⟨items, -, hitems, -⟩ | hmember
    · cases hitems
    · exact hmember
  have hget : (plainModel defaultWithBranch none .empty).index.get? "/a" = some child := by
    rw [index_plainModel, seededIndex, hfill, get?_assign]
    exact (congrArg (Option.map _) hchild).trans rfl
  refine ⟨_, child, run_default _ none .empty, ?_, ?_⟩
  · rw [prepare_defaultWithBranch]
    exact hget
  · rw [prepare_defaultWithBranch, data_plainModel, hfill, hpath, hvalue]
    intro h
    cases h

end Pipeline
end SchemaForm
