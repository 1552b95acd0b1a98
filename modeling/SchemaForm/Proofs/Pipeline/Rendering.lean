import Mathlib.Data.List.Induction
import SchemaForm.Pipeline.Model
import SchemaForm.Proofs.Pipeline.Listing
import SchemaForm.Proofs.Pipeline.Selection
import SchemaForm.Proofs.Pipeline.Situated

/-!
# The rendering of a form

The tree of a model shows its fields by way of their children. How often it shows a path is the
product of how often each field on the way lists the next one. Main statement: the tree of a run
shows every path of the index once and no other, exactly if no field lists a path twice, that is, if
no field takes members and elements and has a property named like the number of an element.
-/

namespace SchemaForm

open Json Defaults FieldTree

/-! ### Reading a rendering -/

mutual

/-- The paths that a rendering shows, each before those below it. -/
def shownPaths : Json → List String
  | .obj entries => ((Entries.get? "path" entries).bind str?).toList ++ shownUnder entries
  | .arr items => shownAmong items
  | _ => []

/-- The paths that the elements of an array show. -/
def shownAmong : List Json → List String
  | [] => []
  | v :: rest => shownPaths v ++ shownAmong rest

/-- The paths that the children among some members show. -/
def shownUnder : List (String × Json) → List String
  | [] => []
  | (key, v) :: rest => (if key = "children" then shownPaths v else []) ++ shownUnder rest

end

theorem shownAmong_map {α : Type} (f : α → Json) (xs : List α) :
    shownAmong (xs.map f) = xs.flatMap fun x => shownPaths (f x) := by
  induction xs with
  | nil => rfl
  | cons x rest ih => rw [List.map_cons, shownAmong, ih, List.flatMap_cons]

theorem shownUnder_append (xs ys : Fields) :
    shownUnder (xs ++ ys) = shownUnder xs ++ shownUnder ys := by
  induction xs with
  | nil => rfl
  | cons entry rest ih => rw [List.cons_append, shownUnder, shownUnder, ih, List.append_assoc]

theorem shownUnder_cons_of_ne {key : String} (h : key ≠ "children") (v : Json) (rest : Fields) :
    shownUnder ((key, v) :: rest) = shownUnder rest := by
  rw [shownUnder, if_neg h, List.nil_append]

theorem shownUnder_optional {α : Type} {key : String} (h : key ≠ "children") (f : α → Json)
    (found : Option α) : shownUnder (found.map fun v => (key, f v)).toList = [] := by
  cases found with
  | none => rfl
  | some v => exact shownUnder_cons_of_ne h (f v) []

/-- A field shows its own path, and then what its children show. -/
theorem shownPaths_toJsonWith (children : List Json) (n : FieldNode) :
    shownPaths (n.toJsonWith children) = n.path :: shownAmong children := by
  have hvalue : shownUnder (n.value.map fun v => ("value", v)).toList = [] :=
    shownUnder_optional (by decide) id n.value
  have hextensions : shownUnder (if n.extensions = [] then [] else
      [("extensions", .obj n.extensions)]) = [] := by
    split
    · rfl
    · exact shownUnder_cons_of_ne (by decide) _ []
  have hunder : ∀ entries : Fields, FieldNode.toJsonWith children n = .obj entries →
      shownUnder entries = shownAmong children := by
    intro entries h
    cases h
    simp [shownUnder_append, shownUnder_optional, shownUnder, shownPaths, hvalue, hextensions]
  exact congrArg (n.path :: ·) (hunder _ rfl)

/-! ### The fields that a rendering comes to -/

/-- The paths that lie so many steps below a path, by way of the children. -/
def pathsBelow (index : FieldIndex) : Nat → String → List String
  | 0, path => [path]
  | fuel + 1, path =>
    path :: ((index.get? path).elim [] FieldNode.children).flatMap (pathsBelow index fuel)

variable {index : FieldIndex} {path : String} {n : FieldNode}

theorem pathsBelow_succ (h : index.get? path = some n) (fuel : Nat) :
    pathsBelow index (fuel + 1) path = path :: n.children.flatMap (pathsBelow index fuel) := by
  rw [pathsBelow, h]
  rfl

/-- The rendering of a field shows the paths below it. -/
theorem shownPaths_nodeJson {m : FormModel} (hclosed : Closed m.index)
    (h : m.index.get? path = some n) (fuel : Nat) :
    shownPaths (m.nodeJson fuel n) = pathsBelow m.index fuel path := by
  have hpath := hclosed.path path n h
  induction fuel generalizing path n with
  | zero =>
    rw [FormModel.nodeJson, shownPaths_toJsonWith, hpath]
    rfl
  | succ fuel ih =>
    have hchildren : m.children path = n.children.filterMap m.get? := by
      rw [FormModel.children, FormModel.get?, h]
      rfl
    rw [FormModel.nodeJson, shownPaths_toJsonWith, hpath, shownAmong_map, hchildren,
      pathsBelow_succ h]
    congr 1
    -- every listed child is found, so none is left out
    have hfound : ∀ child ∈ n.children, ∃ c, m.index.get? child = some c := by
      intro child hchild
      obtain ⟨-, -, hc⟩ := hclosed.child path n h child hchild
      exact hc
    generalize n.children = children at hfound
    induction children with
    | nil => rfl
    | cons child rest ihRest =>
      obtain ⟨c, hc⟩ := hfound child List.mem_cons_self
      have hget : m.get? child = some c := hc
      rw [List.filterMap_cons, hget, List.flatMap_cons, List.flatMap_cons,
        ih hc (hclosed.path child c hc), ihRest fun other hother =>
          hfound other (List.mem_cons_of_mem _ hother)]

theorem shownPaths_treeJson {m : FormModel} (hclosed : Closed m.index) :
    shownPaths m.treeJson = pathsBelow m.index m.index.size "" := by
  obtain ⟨root, hroot⟩ := hclosed.root
  have hroot' : m.root? = some root := hroot
  rw [FormModel.treeJson, hroot']
  exact shownPaths_nodeJson hclosed hroot _

/-- What is shown below a path lies at or below it, and is a field. -/
theorem exists_join_of_mem_pathsBelow (hclosed : Closed index) (h : index.get? path = some n)
    {fuel : Nat} {shown : String} (hshown : shown ∈ pathsBelow index fuel path) :
    (∃ segments, shown = Pointer.join path segments) ∧ ∃ m, index.get? shown = some m := by
  induction fuel generalizing path n with
  | zero =>
    rw [List.mem_singleton.1 hshown]
    exact ⟨⟨[], (Pointer.join_nil path).symm⟩, n, h⟩
  | succ fuel ih =>
    rw [pathsBelow_succ h] at hshown
    rcases List.mem_cons.1 hshown with rfl | hbelow
    · exact ⟨⟨[], (Pointer.join_nil _).symm⟩, n, h⟩
    · obtain ⟨child, hchild, hbelow⟩ := List.mem_flatMap.1 hbelow
      obtain ⟨segment, rfl, m, hm⟩ := hclosed.child path n h child hchild
      obtain ⟨⟨segments, rfl⟩, hfield⟩ := ih hm hbelow
      exact ⟨⟨segment :: segments, (Pointer.join_cons _ _ _).symm⟩, hfield⟩

theorem exists_segment_of_mem_child (hclosed : Closed index) (h : index.get? path = some n)
    {child shown : String} (hchild : child ∈ n.children) {fuel : Nat}
    (hshown : shown ∈ pathsBelow index fuel child) :
    ∃ segment rest, child = Pointer.append path segment ∧
      shown = Pointer.join path (segment :: rest) := by
  obtain ⟨segment, rfl, m, hm⟩ := hclosed.child path n h child hchild
  obtain ⟨⟨rest, rfl⟩, -⟩ := exists_join_of_mem_pathsBelow hclosed hm hshown
  exact ⟨segment, rest, rfl, (Pointer.join_cons path segment rest).symm⟩

/-! ### How often a path is shown -/

/-- How often some segments are listed one after the other, from a path on. -/
def listings (index : FieldIndex) : String → List String → Nat
  | _, [] => 1
  | path, segment :: rest =>
    ((index.get? path).elim [] FieldNode.children).count (Pointer.append path segment) *
      listings index (Pointer.append path segment) rest

theorem listings_cons (h : index.get? path = some n) (segment : String) (rest : List String) :
    listings index path (segment :: rest) =
      n.children.count (Pointer.append path segment) *
        listings index (Pointer.append path segment) rest := by
  rw [listings, h]
  rfl

theorem listings_concat (segments : List String) (segment : String)
    (h : index.get? (Pointer.join path segments) = some n) :
    listings index path (segments ++ [segment]) =
      listings index path segments *
        n.children.count (Pointer.append (Pointer.join path segments) segment) := by
  induction segments generalizing path with
  | nil =>
    rw [Pointer.join_nil] at h ⊢
    rw [List.nil_append, listings_cons h, listings, listings, Nat.mul_one, Nat.one_mul]
  | cons first rest ih =>
    rw [Pointer.join_cons] at h ⊢
    rw [List.cons_append, listings, listings, ih h, Nat.mul_assoc]

/-- Where an element comes from one kind of list only, it is there as often as that kind. -/
theorem count_flatMap_of_apart {f : String → List String} {x key : String} {xs : List String}
    (h : ∀ y ∈ xs, y ≠ key → x ∉ f y) :
    (xs.flatMap f).count x = xs.count key * (f key).count x := by
  induction xs with
  | nil => simp
  | cons y rest ih =>
    rw [List.flatMap_cons, List.count_append, ih fun z hz => h z (List.mem_cons_of_mem _ hz)]
    by_cases hy : y = key
    · subst hy
      rw [List.count_cons_self, Nat.add_mul, Nat.one_mul, Nat.add_comm]
    · rw [List.count_eq_zero.2 (h y List.mem_cons_self hy), List.count_cons_of_ne hy, Nat.zero_add]

/-- A field is within its own reach, so there is fuel left for its children. -/
theorem exists_succ_of_reach (h : index.get? path = some n) {fuel : Nat}
    (hreach : reach index path ≤ fuel) : ∃ k, fuel = k + 1 := by
  have := reach_append_lt h ""
  exact ⟨fuel - 1, by omega⟩

/-- A path is shown as often as its segments are listed. -/
theorem count_pathsBelow (hclosed : Closed index) (h : index.get? path = some n) {fuel : Nat}
    (hreach : reach index path ≤ fuel) (segments : List String) :
    (pathsBelow index fuel path).count (Pointer.join path segments) =
      listings index path segments := by
  induction segments generalizing path n fuel with
  | nil =>
    obtain ⟨k, rfl⟩ := exists_succ_of_reach h hreach
    rw [pathsBelow_succ h, Pointer.join_nil, List.count_cons_self, listings, List.count_eq_zero.2]
    intro hmem
    obtain ⟨child, hchild, hshown⟩ := List.mem_flatMap.1 hmem
    obtain ⟨segment, rest, -, hself⟩ := exists_segment_of_mem_child hclosed h hchild hshown
    cases Pointer.join_injective ((Pointer.join_nil path).trans hself)
  | cons segment rest ih =>
    obtain ⟨k, rfl⟩ := exists_succ_of_reach h hreach
    have hself : path ≠ Pointer.join path (segment :: rest) := by
      intro hself
      cases Pointer.join_injective ((Pointer.join_nil path).trans hself)
    have hapart : ∀ child ∈ n.children, child ≠ Pointer.append path segment →
        Pointer.join path (segment :: rest) ∉ pathsBelow index k child := by
      intro child hchild hne hshown
      obtain ⟨first, more, rfl, heq⟩ := exists_segment_of_mem_child hclosed h hchild hshown
      cases Pointer.join_injective heq
      exact hne rfl
    rw [pathsBelow_succ h, List.count_cons_of_ne hself, count_flatMap_of_apart hapart,
      listings_cons h]
    by_cases hchild : Pointer.append path segment ∈ n.children
    · obtain ⟨-, -, m, hm⟩ := hclosed.child path n h _ hchild
      have := reach_append_lt h segment
      rw [Pointer.join_cons, ih hm (by omega)]
    · rw [List.count_eq_zero.2 hchild, Nat.zero_mul, Nat.zero_mul]

/-- Where every field but the root is listed and none lists a path twice, each is listed once on
the way from the root. -/
theorem listings_eq_one (hlisted : Listed index)
    (hnodup : ∀ path n, index.get? path = some n → n.children.Nodup) (segments : List String)
    (h : index.get? (Pointer.build segments) = some n) : listings index "" segments = 1 := by
  induction segments using List.reverseRecOn generalizing n with
  | nil => rfl
  | append_singleton front segment ih =>
    obtain ⟨above, habove, hmem⟩ := hlisted front segment n h
    have hjoin : index.get? (Pointer.join "" front) = some above := by
      rw [Pointer.join_empty]
      exact habove
    rw [listings_concat front segment hjoin, ih habove, Pointer.join_empty, Nat.one_mul]
    exact List.count_eq_one_of_mem (hnodup _ above habove) hmem

/-- A rendering shows every field once and nothing else, exactly if no field lists a path twice. -/
theorem pathsBelow_perm_keys_iff (hclosed : Closed index)
    (hcanonical : ∀ path n, index.get? path = some n → ∃ segments, path = Pointer.build segments)
    (hlisted : (∀ path n, index.get? path = some n → n.children.Nodup) → Listed index) :
    (pathsBelow index index.size "").Perm index.keys ↔
      ∀ path n, index.get? path = some n → n.children.Nodup := by
  obtain ⟨root, hroot⟩ := hclosed.root
  have hcount : ∀ segments, (pathsBelow index index.size "").count (Pointer.build segments) =
      listings index "" segments := by
    intro segments
    rw [← Pointer.join_empty]
    exact count_pathsBelow hclosed hroot (reach_le_size index "") segments
  have honce : ∀ shown m, index.get? shown = some m → index.keys.count shown = 1 := by
    intro shown m hm
    exact List.count_eq_one_of_mem index.nodup_keys (SortedMap.mem_keys_iff.2 ⟨m, hm⟩)
  constructor
  · intro hperm path n hn
    rw [List.nodup_iff_count_le_one]
    intro child
    by_cases hchild : child ∈ n.children
    · obtain ⟨segment, rfl, m, hm⟩ := hclosed.child path n hn child hchild
      obtain ⟨segments, rfl⟩ := hcanonical path n hn
      -- the child is shown once, so it is listed once at the end of the way
      have hshown := hperm.count_eq (Pointer.append (Pointer.build segments) segment)
      rw [honce _ m hm, Pointer.append_build, hcount, listings_concat segments segment
        (by rw [Pointer.join_empty]; exact hn), Pointer.join_empty, Pointer.append_build] at hshown
      rw [Pointer.append_build]
      exact Nat.le_of_eq (Nat.eq_one_of_mul_eq_one_left hshown)
    · rw [List.count_eq_zero.2 hchild]
      exact Nat.zero_le 1
  · intro hnodup
    rw [List.perm_iff_count]
    intro shown
    by_cases hkey : ∃ m, index.get? shown = some m
    · obtain ⟨m, hm⟩ := hkey
      obtain ⟨segments, rfl⟩ := hcanonical shown m hm
      rw [honce _ m hm, hcount, listings_eq_one (hlisted hnodup) hnodup segments hm]
    · have hhidden : shown ∉ pathsBelow index index.size "" := fun hshown =>
        hkey (exists_join_of_mem_pathsBelow hclosed hroot hshown).2
      rw [List.count_eq_zero.2 hhidden, List.count_eq_zero.2 fun hmem =>
        hkey (SortedMap.mem_keys_iff.1 hmem)]

namespace Pipeline

/-- A field of a model lists a path twice exactly if it was built under a settled schema that takes
members and elements, from an array, with a property that is named like the number of an element. -/
theorem exists_built_of_get?_plainModel [Patterns] (prepared : Document) {data : Option Json}
    {selections : Selections} {path : String} {n : FieldNode}
    (hn : (plainModel prepared data selections).index.get? path = some n) :
    ∃ built, (plainIndex prepared data selections).get? path = some built ∧
      n = { built with value := n.value } ∧
      (n.children.Nodup ↔ ¬ Doubled built.schema built.value) := by
  rw [index_plainModel] at hn
  obtain ⟨built, hbuilt, heq⟩ := get?_seededIndex hn
  have hchildren : n.children = built.children := by rw [heq]
  refine ⟨built, hbuilt, ?_, ?_⟩
  · rw [heq]
  · obtain ⟨-, hnode⟩ := isNode_of_get?_build hbuilt
    obtain ⟨segments, rfl⟩ := exists_segments_of_get?_build hbuilt
    rw [hchildren, hnode.children_eq]
    have hkeys := (forall_get?_build_iff ((prepared.situated data).chosen selections)
      (P := fun s _ => s.KeysUnique)).2 (fun _ _ hfound => keysUnique_fragmentAt
        ((prepared.situated data).chosen selections).keysUnique hfound) _ built hbuilt
    exact nodup_children_iff hkeys built.path

/-- The rendering of a run shows fields only. It shows each once exactly if no field lists a path
twice, and a field does so exactly if it was built under a settled schema that takes members and
elements, from an array, with a property that is named like the number of an element. -/
theorem rendering_complete_iff [Patterns] (schema : Document) (data : Option Json)
    (selections : Selections) :
    ∃ m, run .default schema data selections = .ok m ∧
      (∀ shown ∈ shownPaths m.treeJson, m.index.contains shown = true) ∧
      ((shownPaths m.treeJson).Perm m.index.keys ↔
        ∀ path n, m.index.get? path = some n → n.children.Nodup) ∧
      ∀ path n, m.index.get? path = some n →
        ∃ built, (plainIndex (Schema.prepare schema) data selections).get? path = some built ∧
          n = { built with value := n.value } ∧
          (n.children.Nodup ↔ ¬ Doubled built.schema built.value) := by
  have hform := sameForm_plainModel (Schema.prepare schema) data selections
  have hclosed := hform.closed (closed_build _ _)
  refine ⟨_, run_default schema data selections, ?_, ?_, fun path n hn =>
    exists_built_of_get?_plainModel schema.prepare hn⟩
  · intro shown hshown
    rw [shownPaths_treeJson hclosed] at hshown
    obtain ⟨root, hroot⟩ := hclosed.root
    exact SortedMap.contains_iff.2 (exists_join_of_mem_pathsBelow hclosed hroot hshown).2
  · rw [shownPaths_treeJson hclosed]
    apply pathsBelow_perm_keys_iff hclosed
    · intro path n hn
      obtain ⟨built, hget, -⟩ := exists_built_of_get?_plainModel schema.prepare hn
      exact exists_segments_of_get?_build hget
    · intro hnodup
      apply hform.listed
      apply listed_build ((schema.prepare.situated data).chosen selections)
      intro path built hget
      obtain ⟨n, hn, hsame⟩ := hform.symm.exists_get? hget
      obtain ⟨built', hget', -, hsingle⟩ := exists_built_of_get?_plainModel schema.prepare hn
      cases hget.symm.trans hget'
      exact hsingle.1 (hnodup path n hn)

/-! ### A property that is named like an index -/

/-- An object or an array, with one property. -/
def eitherWith (name : String) : Json :=
  .obj [("type", .arr [.str "object", .str "array"]), ("properties", .obj [(name, .empty)])]

theorem keysUnique_eitherWith (name : String) : (eitherWith name).KeysUnique := by
  simp [eitherWith]

theorem prepare_eitherWith (name : String) : Schema.prepare (eitherWith name) = eitherWith name :=
  prepare_eq_self rfl rfl rfl rfl

theorem situated_eitherWith [Patterns] (name : String) (data : Option Json) :
    situated (eitherWith name) data = eitherWith name :=
  situated_of_isFixed rfl data

/-- The root of an array lists its one property before its elements. -/
theorem get?_plainIndex_eitherWith [Patterns] (name : String) (items : List Json) :
    (plainIndex (eitherWith name) (some (.arr items)) .empty).get? "" =
      some (node .empty (eitherWith name) (some (.arr items)) "" .root false
        (Pointer.append "" name ::
          (List.range items.length).map (Pointer.appendIndex ""))) := by
  have hsettled : settled (eitherWith name) (some (.arr items)) = some (eitherWith name) :=
    settled_of_no_branches rfl _
  show (build .empty (situated (eitherWith name) _) _).get? "" = _
  rw [situated_eitherWith, get?_build_root, children_of_settled hsettled]
  rfl

/-- Under a schema without keywords there is nothing but the field itself, if the data are no
array. -/
theorem not_doubled_of_fragmentAt_empty [Patterns] {data : Option Json} (h : elements data = [])
    {segments : List String} {found : Json × Option Json}
    (hfound : fragmentAt segments .empty data = some found) : ¬ Doubled found.1 found.2 := by
  have hsettled : settled .empty data = some .empty := settled_of_no_branches rfl data
  have hnames : memberNames .empty data = [] := ite_self _
  have hcount : elementCount .empty data = 0 := by
    rw [elementCount, h]
    exact ite_self _
  cases segments with
  | nil =>
    cases hfound
    rintro ⟨current, i, hcurrent, hi, -⟩
    cases hsettled.symm.trans hcurrent
    exact Nat.not_lt_zero i (hcount ▸ hi)
  | cons segment rest =>
    have helement : elementAt segment .empty data = none := by
      rw [← Option.not_isSome_iff_eq_none, isSome_elementAt_iff, hcount]
      rintro ⟨i, hi, -⟩
      exact Nat.not_lt_zero i hi
    have hproperty : propertyAt segment .empty data = none := by
      rw [← Option.not_isSome_iff_eq_none, isSome_propertyAt_iff, hnames]
      exact List.not_mem_nil
    rw [fragmentAt, hsettled, Option.bind_some, helement, hproperty] at hfound
    cases hfound

/-- No field lists a path twice where the property has another name than the element. -/
theorem not_doubled_of_fragmentAt_eitherWith [Patterns] {segments : List String}
    {found : Json × Option Json}
    (h : fragmentAt segments (eitherWith "a") (some (.arr [int 1])) = some found) :
    ¬ Doubled found.1 found.2 := by
  have hsettled : settled (eitherWith "a") (some (.arr [int 1])) = some (eitherWith "a") :=
    settled_of_no_branches rfl _
  cases segments with
  | nil =>
    cases h
    rintro ⟨current, i, hcurrent, hi, hname⟩
    cases hsettled.symm.trans hcurrent
    obtain rfl : i = 0 := Nat.lt_one_iff.1 hi
    exact absurd hname (by decide)
  | cons segment rest =>
    rw [fragmentAt, hsettled, Option.bind_some] at h
    rcases (Option.orElse_eq_some _ _ _).1 h with helement | ⟨-, hproperty⟩
    · obtain ⟨inner, hinner, hfound⟩ := Option.bind_eq_some_iff.1 helement
      by_cases hsegment : toString 0 = segment
      · have hplace : elementAt segment (eitherWith "a") (some (.arr [int 1])) =
            some (.empty, some (int 1)) := by
          subst hsegment
          rfl
        cases hplace.symm.trans hinner
        exact not_doubled_of_fragmentAt_empty rfl hfound
      · obtain ⟨i, hi, rfl⟩ := isSome_elementAt_iff.1 (by rw [hinner]; rfl)
        obtain rfl : i = 0 := Nat.lt_one_iff.1 hi
        exact absurd rfl hsegment
    · obtain ⟨inner, hinner, hfound⟩ := Option.bind_eq_some_iff.1 hproperty
      have hname := isSome_propertyAt_iff.1 (by rw [hinner]; rfl)
      obtain rfl : segment = "a" := List.mem_singleton.1 hname
      cases hinner
      exact not_doubled_of_fragmentAt_empty rfl hfound

theorem rendering_complete_eitherWith :
    (eitherWith "a").KeysUnique ∧
      ∃ m, run .default (eitherWith "a") (some (.arr [int 1])) .empty = .ok m ∧
        (shownPaths m.treeJson).Perm m.index.keys := by
  obtain ⟨m, hrun, -, hperm, hfields⟩ := rendering_complete_iff
    ⟨eitherWith "a", keysUnique_eitherWith "a"⟩ (some (.arr [int 1])) .empty
  refine ⟨keysUnique_eitherWith "a", m, hrun, hperm.2 ?_⟩
  intro path n hn
  obtain ⟨built, hbuilt, -, hsingle⟩ := hfields path n hn
  rw [prepare_eitherWith, plainIndex, situated_eitherWith] at hbuilt
  rw [hsingle]
  exact (forall_get?_build_iff ⟨_, keysUnique_eitherWith "a"⟩ (P := fun s d => ¬ Doubled s d)).2
    (fun _ _ => not_doubled_of_fragmentAt_eitherWith) path built hbuilt

/-- The element stands at the path of the property, and is shown twice. -/
theorem element_rendered_twice :
    ∃ m, run .default (eitherWith "0") (some (.arr [int 1])) .empty = .ok m ∧
      m.index.contains "/0" = true ∧ (shownPaths m.treeJson).count "/0" = 2 ∧
      ¬ (shownPaths m.treeJson).Perm m.index.keys := by
  refine ⟨_, run_default _ _ _, ?_⟩
  rw [prepare_eitherWith]
  have hclosed := (sameForm_plainModel (eitherWith "0") (some (.arr [int 1])) .empty).closed
    (closed_build _ _)
  obtain ⟨root, hroot, hform⟩ := (sameForm_plainModel (eitherWith "0") (some (.arr [int 1]))
    .empty).symm.exists_get? (get?_plainIndex_eitherWith "0" [int 1])
  have hchildren : root.children = ["/0", "/0"] := congrArg FieldNode.children hform
  obtain ⟨-, -, child, hchild⟩ := hclosed.child "" root hroot "/0" (by simp [hchildren])
  have htwice : (shownPaths (plainModel (eitherWith "0") (some (.arr [int 1])) .empty).treeJson).count
      "/0" = 2 := by
    rw [shownPaths_treeJson hclosed]
    have hcount := count_pathsBelow hclosed hroot (reach_le_size _ "") ["0"]
    rw [listings_cons hroot, hchildren] at hcount
    exact hcount
  refine ⟨SortedMap.contains_iff.2 ⟨child, hchild⟩, htwice, fun hperm => ?_⟩
  have honce := hperm.count_eq "/0"
  rw [htwice, List.count_eq_one_of_mem (SortedMap.nodup_keys _)
    (SortedMap.mem_keys_iff.2 ⟨child, hchild⟩)] at honce
  cases honce

end Pipeline
end SchemaForm
