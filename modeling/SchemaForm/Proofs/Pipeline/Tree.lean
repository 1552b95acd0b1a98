import SchemaForm.Pipeline.Tree
import SchemaForm.Proofs.Pointer
import SchemaForm.Proofs.Schema.KeysUnique
import SchemaForm.Proofs.SortedMap

/-!
# Where the fields of a tree stand

Below a field stand the fields of its settled schema, in which the branches that fit the data are
merged. `FieldTree.fragmentAt` walks down to a field by segments, and look-up in the finished index
finds exactly what the walk finds.
-/

namespace SchemaForm

namespace FieldTree

open Json Schema

variable {pinned : SortedMap Combinator}

/-! ### Unfolding -/

/-- The fields of the properties of a schema that offers no branches. -/
def propertiesBelow [Patterns] (pinned : SortedMap Combinator) (schema : Json) (data : Option Json)
    (path : String) : List String × List FieldNode :=
  if (fieldType schema data).includes .object then
    match schema.getFields? "properties" with
    | some properties => belowProperties pinned (requiredNames schema) properties data path
    | none => ([], [])
  else
    ([], [])

/-- The fields of the elements under a schema that offers no branches. -/
def itemsBelow [Patterns] (pinned : SortedMap Combinator) (schema : Json) (data : Option Json)
    (path : String) : List String × List FieldNode :=
  if (fieldType schema data).includes .array then
    match data.bind items? with
    | some items =>
      belowItems pinned ((schema.getItems? "prefixItems").getD []) (itemSchema schema) items path 0
    | none => ([], [])
  else
    ([], [])

theorem below_of_branch [Patterns] {schema option : Json} {data : Option Json}
    {kind : CombinatorKind}
    {options : List Json} (hbranches : branches? (membersOf (some schema)) = some (kind, options))
    (hfits : fittingBranch? options data = some option) (path : String) :
    below pinned schema data path =
      below pinned
        (.obj (absorb (Entries.eraseAll combinatorKeywords (membersOf (some schema))) option))
        data path := by
  rw [below]
  split
  · next kind' options' heq =>
    rw [hbranches] at heq
    cases heq
    split
    · next option' hoption =>
      rw [hfits] at hoption
      cases hoption
      rfl
    · next hnone => rw [hfits] at hnone; cases hnone
  · next hnone => rw [hbranches] at hnone; cases hnone

theorem below_of_no_fit [Patterns] {schema : Json} {data : Option Json} {kind : CombinatorKind}
    {options : List Json} (hbranches : branches? (membersOf (some schema)) = some (kind, options))
    (hfits : fittingBranch? options data = none) (path : String) :
    below pinned schema data path = ([], []) := by
  rw [below]
  split
  · next kind' options' heq =>
    rw [hbranches] at heq
    cases heq
    split
    · next option' hoption => rw [hfits] at hoption; cases hoption
    · rfl
  · next hnone => rw [hbranches] at hnone; cases hnone

theorem below_of_no_branches [Patterns] {schema : Json}
    (hbranches : branches? (membersOf (some schema)) = none) (data : Option Json)
    (path : String) :
    below pinned schema data path =
      join (propertiesBelow pinned schema data path) (itemsBelow pinned schema data path) := by
  rw [below]
  split
  · next kind options heq => rw [hbranches] at heq; cases heq
  · unfold propertiesBelow itemsBelow
    dsimp only
    congr 1
    · split
      · split
        · next properties hproperties => rw [hproperties]
        · next hnone => rw [hnone]
      · rfl
    · split
      · split
        · next items hitems => rw [hitems]
        · next hnone => rw [hnone]
      · rfl

/-- Where nothing describes properties or branches and the data are no array, nothing lies below. -/
theorem below_of_leaf [Patterns] {schema : Json} {data : Option Json}
    (hbranches : branches? (membersOf (some schema)) = none)
    (hproperties : schema.getFields? "properties" = none) (hitems : data.bind items? = none)
    (path : String) : below pinned schema data path = ([], []) := by
  have hnoProperties : propertiesBelow pinned schema data path = ([], []) := by
    rw [propertiesBelow, hproperties]
    exact ite_self _
  have hnoItems : itemsBelow pinned schema data path = ([], []) := by
    rw [itemsBelow, hitems]
    exact ite_self _
  rw [below_of_no_branches hbranches, hnoProperties, hnoItems]
  rfl

theorem belowProperties_nil [Patterns] (required : List String) (data : Option Json)
    (path : String) : belowProperties pinned required [] data path = ([], []) := by
  rw [belowProperties]

theorem belowProperties_cons [Patterns] (required : List String) (name : String) (schema : Json)
    (rest : List (String × Json)) (data : Option Json) (path : String) :
    belowProperties pinned required ((name, schema) :: rest) data path =
      join
        ([Pointer.append path name],
          (below pinned schema (data.bind (get? name)) (Pointer.append path name)).2 ++
            [node pinned schema (data.bind (get? name)) (Pointer.append path name) .property
              (required.contains name)
              (below pinned schema (data.bind (get? name)) (Pointer.append path name)).1])
        (belowProperties pinned required rest data path) := by
  rw [belowProperties]

theorem belowItems_nil [Patterns] (schemas : List Json) (rest : Json) (path : String)
    (index : Nat) : belowItems pinned schemas rest [] path index = ([], []) := by
  rw [belowItems]

/-- The place of an element: the schemas of a prefix go first. -/
def elementOrigin : List Json → Origin
  | [] => .arrayItem
  | _ :: _ => .prefixItem

theorem belowItems_cons [Patterns] (schemas : List Json) (rest item : Json) (items : List Json)
    (path : String) (index : Nat) :
    belowItems pinned schemas rest (item :: items) path index =
      join
        ([Pointer.appendIndex path index],
          (below pinned (schemas.headD rest) (some item) (Pointer.appendIndex path index)).2 ++
            [node pinned (schemas.headD rest) (some item) (Pointer.appendIndex path index)
              (elementOrigin schemas) false
              (below pinned (schemas.headD rest) (some item)
                (Pointer.appendIndex path index)).1])
        (belowItems pinned schemas.tail rest items path (index + 1)) := by
  cases schemas with
  | nil =>
    rw [belowItems]
    rfl
  | cons schema schemas =>
    rw [belowItems]
    rfl

/-! ### Every field is a node of its schema and data -/

/-- The field is the one of some schema and data at its path, with the children that they give. -/
def IsNode [Patterns] (pinned : SortedMap Combinator) (n : FieldNode) : Prop :=
  ∃ origin required,
    n = node pinned n.schema n.value n.path origin required
      (below pinned n.schema n.value n.path).1

theorem isNode_node [Patterns] (schema : Json) (data : Option Json) (path : String)
    (origin : Origin) (required : Bool) :
    IsNode pinned
      (node pinned schema data path origin required (below pinned schema data path).1) :=
  ⟨origin, required, rfl⟩

theorem mem_propertiesBelow [Patterns] {schema : Json} {data : Option Json} {path : String}
    {n : FieldNode} (h : n ∈ (propertiesBelow pinned schema data path).2) :
    ∃ properties, schema.getFields? "properties" = some properties ∧
      n ∈ (belowProperties pinned (requiredNames schema) properties data path).2 := by
  unfold propertiesBelow at h
  split at h
  · split at h
    · next properties hproperties => exact ⟨properties, hproperties, h⟩
    · cases h
  · cases h

theorem mem_itemsBelow [Patterns] {schema : Json} {data : Option Json} {path : String}
    {n : FieldNode} (h : n ∈ (itemsBelow pinned schema data path).2) :
    ∃ items, data.bind items? = some items ∧
      n ∈ (belowItems pinned ((schema.getItems? "prefixItems").getD []) (itemSchema schema) items
        path 0).2 := by
  unfold itemsBelow at h
  split at h
  · split at h
    · next items hitems => exact ⟨items, hitems, h⟩
    · cases h
  · cases h

/-- The field lies below a path, and its first segment from there is one of some. -/
def LiesBelow (path : String) (first : String → Prop) (n : FieldNode) : Prop :=
  ∃ segment rest, first segment ∧ n.path = Pointer.join path (segment :: rest)

theorem LiesBelow.imp {path : String} {first other : String → Prop}
    (himp : ∀ segment, first segment → other segment) {n : FieldNode} (h : LiesBelow path first n) :
    LiesBelow path other n := by
  obtain ⟨segment, rest, hfirst, hpath⟩ := h
  exact ⟨segment, rest, himp segment hfirst, hpath⟩

/-- The field of a child lies below its parent, and so does what lies below the child. -/
theorem liesBelow_of_child [Patterns] {path segment : String} {first : String → Prop}
    (hfirst : first segment)
    {schema : Json} {data : Option Json} {origin : Origin} {required : Bool}
    (hbelow : ∀ n ∈ (below pinned schema data (Pointer.append path segment)).2,
      LiesBelow (Pointer.append path segment) (fun _ => True) n ∧ IsNode pinned n) :
    ∀ n ∈ (below pinned schema data (Pointer.append path segment)).2 ++
        [node pinned schema data (Pointer.append path segment) origin required
          (below pinned schema data (Pointer.append path segment)).1],
      LiesBelow path first n ∧ IsNode pinned n := by
  intro n hn
  rcases List.mem_append.1 hn with hn | hn
  · obtain ⟨⟨next, rest, -, hpath⟩, hnode⟩ := hbelow n hn
    refine ⟨⟨segment, next :: rest, hfirst, ?_⟩, hnode⟩
    rw [Pointer.join_cons]
    exact hpath
  · rw [List.mem_singleton.1 hn]
    exact ⟨⟨segment, [], hfirst, Pointer.append_eq_join path segment⟩, isNode_node _ _ _ _ _⟩

/-- What is listed below a path lies there, and every field is a node. -/
theorem liesBelow_of_mem_below [Patterns] (pinned : SortedMap Combinator) :
    (∀ schema data path, ∀ n ∈ (below pinned schema data path).2,
      LiesBelow path (fun _ => True) n ∧ IsNode pinned n) ∧
    (∀ schemas rest items path index, ∀ n ∈ (belowItems pinned schemas rest items path index).2,
      LiesBelow path (fun segment => ∃ i ≥ index, segment = toString i) n ∧ IsNode pinned n) ∧
    (∀ required properties data path,
      ∀ n ∈ (belowProperties pinned required properties data path).2,
        LiesBelow path (· ∈ Entries.keys properties) n ∧ IsNode pinned n) := by
  apply below.mutual_induct pinned
    (fun schema data path => ∀ n ∈ (below pinned schema data path).2,
      LiesBelow path (fun _ => True) n ∧ IsNode pinned n)
    (fun schemas rest items path index =>
      ∀ n ∈ (belowItems pinned schemas rest items path index).2,
        LiesBelow path (fun segment => ∃ i ≥ index, segment = toString i) n ∧ IsNode pinned n)
    (fun required properties data path =>
      ∀ n ∈ (belowProperties pinned required properties data path).2,
        LiesBelow path (· ∈ Entries.keys properties) n ∧ IsNode pinned n)
  case case1 =>
    intro schema data path kind options hbranches option hfits ih
    rw [below_of_branch hbranches hfits]
    exact ih
  case case2 =>
    intro schema data path kind options hbranches hfits n hn
    rw [below_of_no_fit hbranches hfits] at hn
    cases hn
  case case3 =>
    intro schema data path hbranches ihProperties ihItems n hn
    rw [below_of_no_branches hbranches] at hn
    rcases List.mem_append.1 hn with hn | hn
    · obtain ⟨properties, hproperties, hn⟩ := mem_propertiesBelow hn
      obtain ⟨hbelow, hnode⟩ := ihProperties properties hproperties n hn
      exact ⟨hbelow.imp fun _ _ => trivial, hnode⟩
    · obtain ⟨items, hitems, hn⟩ := mem_itemsBelow hn
      obtain ⟨hbelow, hnode⟩ := ihItems items hitems n hn
      exact ⟨hbelow.imp fun _ _ => trivial, hnode⟩
  case case4 =>
    intro schemas rest path index n hn
    rw [belowItems_nil] at hn
    cases hn
  case case5 =>
    intro rest path index item items childPath schema schemas children found _ ih ihRest n hn
    rw [belowItems_cons] at hn
    rcases List.mem_append.1 hn with hn | hn
    · exact liesBelow_of_child ⟨index, Nat.le_refl _, rfl⟩ ih n hn
    · obtain ⟨hbelow, hnode⟩ := ihRest n hn
      exact ⟨hbelow.imp fun _ ⟨i, hi, heq⟩ => ⟨i, Nat.le_of_succ_le hi, heq⟩, hnode⟩
  case case6 =>
    intro rest path index item items childPath children found _ ih ihRest n hn
    rw [belowItems_cons] at hn
    rcases List.mem_append.1 hn with hn | hn
    · exact liesBelow_of_child ⟨index, Nat.le_refl _, rfl⟩ ih n hn
    · obtain ⟨hbelow, hnode⟩ := ihRest n hn
      exact ⟨hbelow.imp fun _ ⟨i, hi, heq⟩ => ⟨i, Nat.le_of_succ_le hi, heq⟩, hnode⟩
  case case7 =>
    intro required data path n hn
    rw [belowProperties_nil] at hn
    cases hn
  case case8 =>
    intro required data path name schema rest childPath member children found _ ih ihRest n hn
    rw [belowProperties_cons] at hn
    rcases List.mem_append.1 hn with hn | hn
    · exact liesBelow_of_child List.mem_cons_self ih n hn
    · obtain ⟨hbelow, hnode⟩ := ihRest n hn
      exact ⟨hbelow.imp fun _ => List.mem_cons_of_mem _, hnode⟩

/-! ### The walk -/

/-- The schema whose fields stand below a field: the branches that fit the data are merged in, one
after the other. There is none where no branch fits. -/
def settled [Patterns] (schema : Json) (data : Option Json) : Option Json :=
  match _hb : branches? (membersOf (some schema)) with
  | none => some schema
  | some (_, options) =>
    match _hf : fittingBranch? options data with
    | none => none
    | some option =>
      settled
        (.obj (absorb (Entries.eraseAll combinatorKeywords (membersOf (some schema))) option)) data
termination_by schema.size
decreasing_by
  have hlt := sizeEntries_membersOf_lt schema
  have := Selection.sizeEntries_absorb_option_lt _hb (List.mem_of_find?_eq_some _hf)
  simp only [size]
  omega

/-- The schema and data of a property. -/
def propertyAt (segment : String) (schema : Json) (data : Option Json) :
    Option (Json × Option Json) :=
  if (fieldType schema data).includes .object then
    ((schema.getFields? "properties").bind (Entries.get? segment)).map fun property =>
      (property, data.bind (get? segment))
  else
    none

/-- The schema and the element whose number a segment is; the first element has number `index`. -/
def elementFrom (segment : String) (rest : Json) :
    List Json → List Json → Nat → Option (Json × Json)
  | _, [], _ => none
  | schemas, item :: items, index =>
    if toString index = segment then
      some (schemas.headD rest, item)
    else
      elementFrom segment rest schemas.tail items (index + 1)

/-- The schema and data of an element. -/
def elementAt (segment : String) (schema : Json) (data : Option Json) :
    Option (Json × Option Json) :=
  if (fieldType schema data).includes .array then
    (data.bind items?).bind fun items =>
      (elementFrom segment (itemSchema schema) ((schema.getItems? "prefixItems").getD []) items
        0).map fun place => (place.1, some place.2)
  else
    none

/-- The schema and data of the field at the end of segments. Where an element and a property stand
at one path, the field of the element counts. -/
def fragmentAt [Patterns] : List String → Json → Option Json → Option (Json × Option Json)
  | [], schema, data => some (schema, data)
  | segment :: rest, schema, data =>
    (settled schema data).bind fun schema =>
      ((elementAt segment schema data).bind fun place => fragmentAt rest place.1 place.2).orElse
        fun _ => (propertyAt segment schema data).bind fun place =>
          fragmentAt rest place.1 place.2

theorem settled_of_branch [Patterns] {schema option : Json} {data : Option Json}
    {kind : CombinatorKind}
    {options : List Json} (hbranches : branches? (membersOf (some schema)) = some (kind, options))
    (hfits : fittingBranch? options data = some option) :
    settled schema data =
      settled (.obj (absorb (Entries.eraseAll combinatorKeywords (membersOf (some schema))) option))
        data := by
  rw [settled]
  split
  · next hnone => rw [hbranches] at hnone; cases hnone
  · next kind' options' heq =>
    rw [hbranches] at heq
    cases heq
    split
    · next hnone => rw [hfits] at hnone; cases hnone
    · next option' hoption =>
      rw [hfits] at hoption
      cases hoption
      rfl

theorem settled_of_no_fit [Patterns] {schema : Json} {data : Option Json} {kind : CombinatorKind}
    {options : List Json} (hbranches : branches? (membersOf (some schema)) = some (kind, options))
    (hfits : fittingBranch? options data = none) : settled schema data = none := by
  rw [settled]
  split
  · next hnone => rw [hbranches] at hnone; cases hnone
  · next kind' options' heq =>
    rw [hbranches] at heq
    cases heq
    split
    · rfl
    · next option' hoption => rw [hfits] at hoption; cases hoption

theorem settled_of_no_branches [Patterns] {schema : Json}
    (hbranches : branches? (membersOf (some schema)) = none) (data : Option Json) :
    settled schema data = some schema := by
  rw [settled]
  split
  · rfl
  · next kind options heq => rw [hbranches] at heq; cases heq

/-- The walk sees a schema as it is settled. -/
theorem fragmentAt_of_branch [Patterns] {schema option : Json} {data : Option Json}
    {kind : CombinatorKind}
    {options : List Json} (hbranches : branches? (membersOf (some schema)) = some (kind, options))
    (hfits : fittingBranch? options data = some option) (segment : String) (rest : List String) :
    fragmentAt (segment :: rest) schema data =
      fragmentAt (segment :: rest)
        (.obj (absorb (Entries.eraseAll combinatorKeywords (membersOf (some schema))) option))
        data := by
  rw [fragmentAt, fragmentAt, settled_of_branch hbranches hfits]

/-! ### Look-up by path -/

/-- The last field of a list that stands at a path. -/
def nodeAt (path : String) (nodes : List FieldNode) : Option FieldNode :=
  SortedMap.lookup path (nodes.map fun n => (n.path, n)).reverse

theorem nodeAt_append (path : String) (xs ys : List FieldNode) :
    nodeAt path (xs ++ ys) = (nodeAt path ys).orElse fun _ => nodeAt path xs := by
  unfold nodeAt
  rw [List.map_append, List.reverse_append, SortedMap.lookup_append]

theorem nodeAt_append_of_right_none {path : String} {xs ys : List FieldNode}
    (h : nodeAt path ys = none) : nodeAt path (xs ++ ys) = nodeAt path xs := by
  rw [nodeAt_append, h]
  rfl

theorem nodeAt_append_of_left_none {path : String} {xs ys : List FieldNode}
    (h : nodeAt path xs = none) : nodeAt path (xs ++ ys) = nodeAt path ys := by
  rw [nodeAt_append, h]
  cases nodeAt path ys <;> rfl

theorem nodeAt_singleton (path : String) (n : FieldNode) :
    nodeAt path [n] = if n.path = path then some n else none := rfl

theorem nodeAt_eq_none {path : String} {nodes : List FieldNode} (h : ∀ n ∈ nodes, n.path ≠ path) :
    nodeAt path nodes = none := by
  unfold nodeAt
  rw [SortedMap.lookup_eq_none_iff]
  intro entry hentry
  obtain ⟨n, hn, rfl⟩ := List.mem_map.1 (List.mem_reverse.1 hentry)
  exact h n hn

theorem mem_of_nodeAt {path : String} {nodes : List FieldNode} {n : FieldNode}
    (h : nodeAt path nodes = some n) : n ∈ nodes ∧ n.path = path := by
  have hmem := SortedMap.mem_of_lookup h
  obtain ⟨n', hn', heq⟩ := List.mem_map.1 (List.mem_reverse.1 hmem)
  cases heq
  exact ⟨hn', rfl⟩

/-- Fields whose first segment is another one do not stand at a path. -/
theorem nodeAt_eq_none_of_liesBelow (first : String → Prop) {path segment : String}
    {rest : List String} (hfirst : ¬ first segment) {nodes : List FieldNode}
    (h : ∀ n ∈ nodes, LiesBelow path first n) :
    nodeAt (Pointer.join path (segment :: rest)) nodes = none := by
  apply nodeAt_eq_none
  intro n hn heq
  obtain ⟨other, others, hother, hpath⟩ := h n hn
  rw [hpath] at heq
  have hsegments := Pointer.join_injective heq
  cases hsegments
  exact hfirst hother

/-- The schema and data that a field shows. -/
def place (n : FieldNode) : Json × Option Json := (n.schema, n.value)

/-- Look-up finds what lies below a schema as the walk does. -/
def FoundBelow [Patterns] (pinned : SortedMap Combinator) (schema : Json) (data : Option Json)
    (path : String) : Prop :=
  ∀ segment rest,
    (nodeAt (Pointer.join path (segment :: rest)) (below pinned schema data path).2).map place =
      fragmentAt (segment :: rest) schema data

/-- Look-up finds the fields of properties as the walk does. -/
def FoundProperties [Patterns] (pinned : SortedMap Combinator) (required : List String)
    (properties : List (String × Json)) (data : Option Json) (path : String) : Prop :=
  ∀ segment rest,
    (nodeAt (Pointer.join path (segment :: rest))
      (belowProperties pinned required properties data path).2).map place =
        (Entries.get? segment properties).bind fun schema =>
          fragmentAt rest schema (data.bind (get? segment))

/-- Look-up finds the fields of elements as the walk does. -/
def FoundItems [Patterns] (pinned : SortedMap Combinator) (schemas : List Json) (last : Json)
    (items : List Json) (path : String) (index : Nat) : Prop :=
  ∀ segment rest,
    (nodeAt (Pointer.join path (segment :: rest))
      (belowItems pinned schemas last items path index).2).map place =
        (elementFrom segment last schemas items index).bind fun found =>
          fragmentAt rest found.1 (some found.2)

/-- A field is found, and what lies below it. -/
theorem nodeAt_field [Patterns] {schema : Json} {data : Option Json} {path : String}
    {origin : Origin}
    {required : Bool} {children : List String} (h : FoundBelow pinned schema data path)
    (segments : List String) :
    (nodeAt (Pointer.join path segments) ((below pinned schema data path).2 ++
      [node pinned schema data path origin required children])).map place =
        fragmentAt segments schema data := by
  have hpath : (node pinned schema data path origin required children).path = path := rfl
  rw [nodeAt_append, nodeAt_singleton]
  cases segments with
  | nil =>
    rw [Pointer.join_nil, if_pos hpath]
    rfl
  | cons next rest =>
    rw [if_neg]
    · exact h next rest
    · intro heq
      have hsegments := Pointer.join_injective ((Pointer.join_nil path).trans heq)
      cases hsegments

/-- Of a child and its later siblings look-up finds the child at its own segment. -/
theorem nodeAt_child_of_eq [Patterns] {schema : Json} {data : Option Json} {path segment : String}
    {origin : Origin} {required : Bool} {children : List String} {later : List FieldNode}
    {first : String → Prop} (hlater : ∀ n ∈ later, LiesBelow path first n)
    (hfirst : ¬ first segment)
    (h : FoundBelow pinned schema data (Pointer.append path segment)) (rest : List String) :
    (nodeAt (Pointer.join path (segment :: rest))
      ((below pinned schema data (Pointer.append path segment)).2 ++
        [node pinned schema data (Pointer.append path segment) origin required children] ++
          later)).map place = fragmentAt rest schema data := by
  rw [nodeAt_append_of_right_none (nodeAt_eq_none_of_liesBelow _ hfirst hlater), Pointer.join_cons]
  exact nodeAt_field h rest

/-- Of a child and its later siblings look-up finds the siblings at another segment. -/
theorem nodeAt_child_of_ne [Patterns] {schema : Json} {data : Option Json}
    {path segment other : String} {origin : Origin} {required : Bool} (hne : segment ≠ other)
    (rest : List String) (later : List FieldNode) :
    nodeAt (Pointer.join path (other :: rest))
      ((below pinned schema data (Pointer.append path segment)).2 ++
        [node pinned schema data (Pointer.append path segment) origin required
          (below pinned schema data (Pointer.append path segment)).1] ++ later) =
      nodeAt (Pointer.join path (other :: rest)) later := by
  refine nodeAt_append_of_left_none (nodeAt_eq_none_of_liesBelow (segment = ·) ?_ ?_)
  · exact hne
  · intro n hn
    exact (liesBelow_of_child rfl ((liesBelow_of_mem_below pinned).1 schema data _) n hn).1

/-- The properties of a schema without branches are found as the walk finds them. -/
theorem nodeAt_propertiesBelow [Patterns] {schema : Json} {data : Option Json} {path : String}
    (h : ∀ properties, schema.getFields? "properties" = some properties →
      FoundProperties pinned (requiredNames schema) properties data path)
    (segment : String) (rest : List String) :
    (nodeAt (Pointer.join path (segment :: rest)) (propertiesBelow pinned schema data path).2).map
      place = (propertyAt segment schema data).bind fun found =>
        fragmentAt rest found.1 found.2 := by
  unfold propertiesBelow propertyAt
  split
  · cases hproperties : schema.getFields? "properties" with
    | none => rfl
    | some properties =>
      dsimp only
      rw [h properties hproperties, Option.bind_some, Option.bind_map]
      rfl
  · rfl

/-- The elements under a schema without branches are found as the walk finds them. -/
theorem nodeAt_itemsBelow [Patterns] {schema : Json} {data : Option Json} {path : String}
    (h : ∀ items, data.bind items? = some items →
      FoundItems pinned ((schema.getItems? "prefixItems").getD []) (itemSchema schema) items path 0)
    (segment : String) (rest : List String) :
    (nodeAt (Pointer.join path (segment :: rest)) (itemsBelow pinned schema data path).2).map
      place = (elementAt segment schema data).bind fun found =>
        fragmentAt rest found.1 found.2 := by
  unfold itemsBelow elementAt
  split
  · cases hitems : data.bind items? with
    | none => rfl
    | some items =>
      dsimp only
      rw [h items hitems, Option.bind_some, Option.bind_map]
      rfl
  · rfl

/-- What lies below a schema without branches is found if its properties and elements are. -/
theorem foundBelow_of_no_branches [Patterns] {schema : Json} {data : Option Json} {path : String}
    (hbranches : branches? (membersOf (some schema)) = none)
    (hproperties : ∀ properties, schema.getFields? "properties" = some properties →
      FoundProperties pinned (requiredNames schema) properties data path)
    (hitems : ∀ items, data.bind items? = some items →
      FoundItems pinned ((schema.getItems? "prefixItems").getD []) (itemSchema schema) items path
        0) : FoundBelow pinned schema data path := by
  intro segment rest
  rw [below_of_no_branches hbranches, fragmentAt, settled_of_no_branches hbranches,
    Option.bind_some]
  show (nodeAt _ ((propertiesBelow pinned schema data path).2 ++
    (itemsBelow pinned schema data path).2)).map place = _
  rw [nodeAt_append, ← nodeAt_propertiesBelow hproperties segment rest,
    ← nodeAt_itemsBelow hitems segment rest]
  cases nodeAt (Pointer.join path (segment :: rest)) (itemsBelow pinned schema data path).2 <;>
    rfl

/-- Elements are found if the first one and the later ones are. -/
theorem foundItems_cons [Patterns] {schemas : List Json} {last item : Json} {items : List Json}
    {path : String} {index : Nat}
    (hitem : FoundBelow pinned (schemas.headD last) (some item) (Pointer.appendIndex path index))
    (hrest : FoundItems pinned schemas.tail last items path (index + 1)) :
    FoundItems pinned schemas last (item :: items) path index := by
  intro segment rest
  rw [belowItems_cons, elementFrom]
  by_cases hsegment : toString index = segment
  · subst hsegment
    rw [if_pos rfl]
    refine nodeAt_child_of_eq
      (fun n hn => ((liesBelow_of_mem_below pinned).2.1 _ _ _ _ _ n hn).1) ?_ hitem rest
    -- The later elements have greater numbers.
    rintro ⟨i, hi, heq⟩
    have := Pointer.toString_index_injective heq
    omega
  · rw [if_neg hsegment]
    have hlater := hrest segment rest
    exact (congrArg (Option.map place) (nodeAt_child_of_ne hsegment rest _)).trans hlater

/-- Properties are found if the first one and the later ones are. -/
theorem foundProperties_cons [Patterns] {required : List String} {name : String} {schema : Json}
    {properties : List (String × Json)} {data : Option Json} {path : String}
    (hname : name ∉ Entries.keys properties)
    (hschema : FoundBelow pinned schema (data.bind (get? name)) (Pointer.append path name))
    (hrest : FoundProperties pinned required properties data path) :
    FoundProperties pinned required ((name, schema) :: properties) data path := by
  intro segment rest
  rw [belowProperties_cons, Entries.get?_cons]
  by_cases hsegment : name = segment
  · subst hsegment
    rw [if_pos rfl]
    exact nodeAt_child_of_eq
      (fun n hn => ((liesBelow_of_mem_below pinned).2.2 _ _ _ _ n hn).1) hname hschema rest
  · rw [if_neg hsegment]
    have hlater := hrest segment rest
    exact (congrArg (Option.map place) (nodeAt_child_of_ne hsegment rest _)).trans hlater

theorem keysUnique_prefixItems {schema : Json} (h : schema.KeysUnique) :
    ∀ item ∈ (schema.getItems? "prefixItems").getD [], item.KeysUnique :=
  keysUnique_elements fun _ hv => h.get? hv

theorem keysUnique_itemSchema {schema : Json} (h : schema.KeysUnique) :
    (itemSchema schema).KeysUnique := by
  unfold itemSchema
  split
  · next fields hfields => exact h.get? hfields
  · exact keysUnique_empty

/-- Look-up among the fields below a path finds what the walk finds. -/
theorem foundBelow [Patterns] (pinned : SortedMap Combinator) :
    (∀ schema data path, schema.KeysUnique → FoundBelow pinned schema data path) ∧
    (∀ schemas last items path index, (∀ schema ∈ schemas, schema.KeysUnique) →
      last.KeysUnique → FoundItems pinned schemas last items path index) ∧
    (∀ required properties data path, MembersUnique properties →
      FoundProperties pinned required properties data path) := by
  apply below.mutual_induct pinned
    (fun schema data path => schema.KeysUnique → FoundBelow pinned schema data path)
    (fun schemas last items path index => (∀ schema ∈ schemas, schema.KeysUnique) →
      last.KeysUnique → FoundItems pinned schemas last items path index)
    (fun required properties data path => MembersUnique properties →
      FoundProperties pinned required properties data path)
  case case1 =>
    intro schema data path kind options hbranches option hfits ih h segment rest
    rw [below_of_branch hbranches hfits, fragmentAt_of_branch hbranches hfits]
    refine ih (keysUnique_obj_iff.2 ?_) segment rest
    have hmembers : MembersUnique (membersOf (some schema)) :=
      membersUnique_membersOf fun v hv => Option.some.inj hv ▸ h
    obtain ⟨keyword, -, hoptions⟩ := Selection.mem_of_branches? hbranches
    refine membersUnique_absorb (hmembers.eraseAll _) ?_
    exact keysUnique_arr_iff.1 (hmembers.get? hoptions) option (List.mem_of_find?_eq_some hfits)
  case case2 =>
    intro schema data path kind options hbranches hfits h segment rest
    rw [below_of_no_fit hbranches hfits, fragmentAt, settled_of_no_fit hbranches hfits]
    rfl
  case case3 =>
    intro schema data path hbranches ihProperties ihItems h
    refine foundBelow_of_no_branches hbranches ?_ ?_
    · intro properties hproperties
      exact ihProperties properties hproperties (h.getFields? hproperties)
    · intro items hitems
      exact ihItems items hitems (keysUnique_prefixItems h) (keysUnique_itemSchema h)
  case case4 =>
    intro schemas last path index _ _ segment rest
    rw [belowItems_nil, elementFrom]
    rfl
  case case5 =>
    intro last path index item items childPath schema schemas children found _ ih ihRest hschemas
      hlast
    refine foundItems_cons (ih (hschemas schema List.mem_cons_self)) (ihRest ?_ hlast)
    exact fun s hs => hschemas s (List.mem_cons_of_mem _ hs)
  case case6 =>
    intro last path index item items childPath children found _ ih ihRest hschemas hlast
    exact foundItems_cons (ih hlast) (ihRest hschemas hlast)
  case case7 =>
    intro required data path _ segment rest
    rw [belowProperties_nil]
    rfl
  case case8 =>
    intro required data path name schema properties childPath member children found _ ih ihRest h
    obtain ⟨hname, hschema, hproperties⟩ := membersUnique_cons_iff.1 h
    exact foundProperties_cons hname (ih hschema) (ihRest hproperties)

/-- Look-up in the index finds at the end of segments what the walk finds there. -/
theorem get?_build [Patterns] (schema : Document) (data : Option Json) (segments : List String) :
    ((build pinned schema data).get? (Pointer.build segments)).map place =
      fragmentAt segments schema data := by
  rw [← Pointer.join_empty, build, SortedMap.get?_ofList]
  exact nodeAt_field ((foundBelow pinned).1 schema data "" schema.keysUnique) segments

/-- Every field in the index is a node at its path. -/
theorem isNode_of_get?_build [Patterns] {schema : Json} {data : Option Json} {path : String}
    {n : FieldNode}
    (h : (build pinned schema data).get? path = some n) : n.path = path ∧ IsNode pinned n := by
  rw [build, SortedMap.get?_ofList] at h
  obtain ⟨hmem, hpath⟩ := mem_of_nodeAt h
  refine ⟨hpath, ?_⟩
  rcases List.mem_append.1 hmem with hmem | hmem
  · exact ((liesBelow_of_mem_below pinned).1 schema data "" n hmem).2
  · rw [List.mem_singleton.1 hmem]
    exact isNode_node _ _ _ _ _

/-- A field shows the branches of its own schema before a pinned choice. -/
theorem IsNode.combinator_eq [Patterns] {n : FieldNode} (h : IsNode pinned n) :
    n.combinator = (ownCombinator? n.schema n.value).orElse fun _ => pinned.get? n.path := by
  obtain ⟨origin, required, heq⟩ := h
  exact congrArg FieldNode.combinator heq

/-- The combinator that the index shows at the end of segments. -/
theorem combinator_get?_build [Patterns] (schema : Document) (data : Option Json)
    (segments : List String) :
    ((build pinned schema data).get? (Pointer.build segments)).map FieldNode.combinator =
      (fragmentAt segments schema data).map fun found =>
        (ownCombinator? found.1 found.2).orElse fun _ => pinned.get? (Pointer.build segments) := by
  have hplace : ((build pinned schema data).get? (Pointer.build segments)).map place = _ :=
    get?_build schema data segments
  rw [← hplace]
  cases hfound : (build pinned schema data).get? (Pointer.build segments) with
  | none => rfl
  | some n =>
    obtain ⟨hpath, hnode⟩ := isNode_of_get?_build hfound
    rw [Option.map_some, Option.map_some, Option.map_some, hnode.combinator_eq, hpath]
    rfl

end FieldTree
end SchemaForm
