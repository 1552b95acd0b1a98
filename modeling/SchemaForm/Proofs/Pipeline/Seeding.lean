import SchemaForm.Proofs.Entries
import SchemaForm.Proofs.Json.Update
import SchemaForm.Proofs.Pipeline.Defaults
import SchemaForm.Proofs.Pipeline.Nesting
import SchemaForm.Proofs.Pipeline.Plain

/-!
# Filling in defaults

A field is served in one of three ways: its members are seeded, its elements are, or its data stay
as they are given. The fuel of the recursion never runs out, so `Defaults.fill` is its fixed point.
Filling in twice is filling in once, and the values that the fields take hang on the form of the
fields alone, not on the values that they had before.
-/

namespace SchemaForm

namespace Defaults

open Json FieldTree

variable {index : FieldIndex} {seed : String → Option Json → Seeded (Option Json)}

/-! ### The three ways of a field -/

/-- The data of a field, or else its default. -/
def given (node : FieldNode) (data : Option Json) : Option Json :=
  data.orElse fun _ => node.schema.get? "default"

/-- The field has children and holds an object for them. -/
def servesMembers (node : FieldNode) : Bool :=
  node.type.includes .object && !node.children.isEmpty

/-- The elements that the children of a field fill in place. -/
def servedElements? (node : FieldNode) (data : Option Json) : Option (List Json) :=
  if node.type.includes .array && !node.children.isEmpty then (given node data).bind items?
  else none

/-- What becomes of the data of a field, when `seed` fills in its children. -/
def seedField (seed : String → Option Json → Seeded (Option Json)) (node : FieldNode)
    (path : String) (data : Option Json) : Seeded (Option Json) :=
  if servesMembers node then
    let found := seedMembers seed node.children (Schema.membersOf (given node data))
    ⟨some (.obj found.result), found.values ++ [(path, some (.obj found.result))]⟩
  else
    match servedElements? node data with
    | some items =>
      let found := seedElements seed node.children items
      ⟨some (.arr found.result), found.values ++ [(path, some (.arr found.result))]⟩
    | none => ⟨given node data, [(path, given node data)]⟩

theorem seedAt_of_none {path : String} (h : index.get? path = none) (fuel : Nat)
    (data : Option Json) : seedAt index fuel path data = ⟨data, []⟩ := by
  cases fuel with
  | zero => rfl
  | succ fuel => rw [seedAt, h]

theorem seedAt_of_some {path : String} {node : FieldNode} (h : index.get? path = some node)
    (fuel : Nat) (data : Option Json) :
    seedAt index (fuel + 1) path data = seedField (seedAt index fuel) node path data := by
  rw [seedAt, h]
  unfold seedField servedElements? servesMembers given
  dsimp only
  cases node.type.includes .object && !node.children.isEmpty with
  | true => cases node.type.includes .array && !node.children.isEmpty <;> simp
  | false =>
    cases node.type.includes .array && !node.children.isEmpty with
    | false => rfl
    | true =>
      simp only [Bool.false_eq_true, if_false, if_true]
      cases data.orElse fun _ => node.schema.get? "default" with
      | none => rfl
      | some v => cases v <;> rfl

/-! ### Members -/

/-- The name of a child among the members of its parent. -/
def childKey (child : String) : String := (Pointer.lastSegment? child).getD ""

@[simp] theorem childKey_append (base segment : String) :
    childKey (Pointer.append base segment) = segment := by
  rw [childKey, Pointer.lastSegment?_append, Option.getD_some]

/-- The members with what became of a child; an absent child is not written. -/
def put (child : String) (value : Option Json) (fields : Fields) : Fields :=
  value.elim fields fun v => Entries.insert (childKey child) v fields

/-- Seeds one more child, after some were. -/
def seedNext (seed : String → Option Json → Seeded (Option Json)) (done : Seeded Fields)
    (child : String) : Seeded Fields :=
  let found := seed child (Entries.get? (childKey child) done.result)
  ⟨put child found.result done.result, done.values ++ found.values⟩

theorem seedMembers_eq_foldl (children : List String) (fields : Fields) :
    seedMembers seed children fields = children.foldl (seedNext seed) ⟨fields, []⟩ := rfl

/-- The values found so far are only carried along. -/
theorem foldl_seedNext (children : List String) (done : Seeded Fields) :
    children.foldl (seedNext seed) done =
      ⟨(seedMembers seed children done.result).result,
        done.values ++ (seedMembers seed children done.result).values⟩ := by
  induction children generalizing done with
  | nil => exact congrArg (Seeded.mk done.result) (List.append_nil _).symm
  | cons child children ih =>
    rw [seedMembers_eq_foldl, List.foldl_cons, List.foldl_cons, ih, ih (seedNext seed _ child)]
    simp only [seedNext, List.nil_append, List.append_assoc]

theorem seedMembers_cons (child : String) (children : List String) (fields : Fields) :
    seedMembers seed (child :: children) fields =
      let found := seed child (Entries.get? (childKey child) fields)
      let rest := seedMembers seed children (put child found.result fields)
      ⟨rest.result, found.values ++ rest.values⟩ := by
  rw [seedMembers_eq_foldl, List.foldl_cons, foldl_seedNext]
  rfl

theorem seedMembers_congr {other : String → Option Json → Seeded (Option Json)}
    {children : List String} (h : ∀ child ∈ children, ∀ data, seed child data = other child data)
    (fields : Fields) : seedMembers seed children fields = seedMembers other children fields := by
  induction children generalizing fields with
  | nil => rfl
  | cons child children ih =>
    have hrest := fun c hc => h c (List.mem_cons_of_mem child hc)
    rw [seedMembers_cons, seedMembers_cons, h child List.mem_cons_self]
    simp only [ih hrest]

/-- Seeding fills in what is absent and finds nothing more to do in what it filled in. -/
structure Settles (seed : String → Option Json → Seeded (Option Json)) : Prop where
  present : ∀ path v, (seed path (some v)).result ≠ none
  again : ∀ path data, seed path (seed path data).result = seed path data

/-- No two children have one name. -/
def KeysApart (children : List String) : Prop :=
  ∀ child ∈ children, ∀ other ∈ children, childKey child = childKey other → child = other

theorem KeysApart.tail {child : String} {children : List String}
    (h : KeysApart (child :: children)) : KeysApart children :=
  fun c hc d hd => h c (List.mem_cons_of_mem child hc) d (List.mem_cons_of_mem child hd)

theorem get?_put (hs : Settles seed) (child key : String) (fields : Fields) :
    Entries.get? key (put child (seed child (Entries.get? (childKey child) fields)).result fields) =
      if childKey child = key then (seed child (Entries.get? key fields)).result
      else Entries.get? key fields := by
  by_cases hkey : childKey child = key
  · subst hkey
    rw [if_pos rfl]
    cases hfound : (seed child (Entries.get? (childKey child) fields)).result with
    | some v => exact (Entries.get?_insert _ _ v fields).trans (if_pos rfl)
    | none =>
      -- what is absent afterwards was absent before
      cases hbefore : Entries.get? (childKey child) fields with
      | none => exact hbefore
      | some v =>
        rw [hbefore] at hfound
        exact absurd hfound (hs.present child v)
  · rw [if_neg hkey]
    cases (seed child (Entries.get? (childKey child) fields)).result with
    | some v => exact (Entries.get?_insert _ _ v fields).trans (if_neg hkey)
    | none => rfl

theorem get?_seedMembers_of_ne (hs : Settles seed) {children : List String} {key : String}
    (h : ∀ child ∈ children, childKey child ≠ key) (fields : Fields) :
    Entries.get? key (seedMembers seed children fields).result = Entries.get? key fields := by
  induction children generalizing fields with
  | nil => rfl
  | cons child children ih =>
    rw [seedMembers_cons]
    refine (ih (fun c hc => h c (List.mem_cons_of_mem child hc)) _).trans ?_
    rw [get?_put hs, if_neg (h child List.mem_cons_self)]

/-- What one child became does not hang on its siblings. -/
theorem seed_put (hs : Settles seed) {child other : String}
    (hapart : childKey child = childKey other → child = other) (fields : Fields) :
    seed other (Entries.get? (childKey other)
      (put child (seed child (Entries.get? (childKey child) fields)).result fields)) =
        seed other (Entries.get? (childKey other) fields) := by
  rw [get?_put hs]
  by_cases hkey : childKey child = childKey other
  · rw [if_pos hkey, hapart hkey, hs.again]
  · rw [if_neg hkey]

theorem get?_seedMembers (hs : Settles seed) {children : List String} (hapart : KeysApart children)
    {child : String} (hchild : child ∈ children) (fields : Fields) :
    Entries.get? (childKey child) (seedMembers seed children fields).result =
      (seed child (Entries.get? (childKey child) fields)).result := by
  induction children generalizing fields with
  | nil => cases hchild
  | cons first children ih =>
    rw [seedMembers_cons]
    by_cases hmem : child ∈ children
    · refine (ih hapart.tail hmem _).trans ?_
      rw [seed_put hs (hapart first List.mem_cons_self child hchild)]
    · obtain rfl : child = first := (List.mem_cons.1 hchild).resolve_right hmem
      refine (get?_seedMembers_of_ne hs ?_ _).trans ?_
      · intro c hc hkey
        exact hmem (hapart c (List.mem_cons_of_mem child hc) child hchild hkey ▸ hc)
      · rw [get?_put hs, if_pos rfl]

theorem values_seedMembers (hs : Settles seed) {children : List String}
    (hapart : KeysApart children) (fields : Fields) :
    (seedMembers seed children fields).values =
      children.flatMap fun child => (seed child (Entries.get? (childKey child) fields)).values := by
  induction children generalizing fields with
  | nil => rfl
  | cons first children ih =>
    rw [seedMembers_cons, List.flatMap_cons]
    refine congrArg (_ ++ ·) ((ih hapart.tail _).trans ?_)
    refine List.flatMap_congr fun child hchild => ?_
    rw [seed_put hs (hapart first List.mem_cons_self child (List.mem_cons_of_mem first hchild))]

/-- Members that hold what seeding makes of them stay. -/
theorem seedMembers_of_filled {children : List String} {fields : Fields}
    (h : ∀ child ∈ children, (seed child (Entries.get? (childKey child) fields)).result =
      Entries.get? (childKey child) fields) :
    (seedMembers seed children fields).result = fields := by
  induction children with
  | nil => rfl
  | cons child children ih =>
    rw [seedMembers_cons]
    have hput : put child (seed child (Entries.get? (childKey child) fields)).result fields =
        fields := by
      rw [h child List.mem_cons_self]
      cases hget : Entries.get? (childKey child) fields with
      | none => rfl
      | some v => exact Entries.insert_of_get? hget
    show (seedMembers seed children (put child _ fields)).result = fields
    rw [hput, ih fun c hc => h c (List.mem_cons_of_mem child hc)]

theorem seedMembers_again (hs : Settles seed) {children : List String}
    (hapart : KeysApart children) (fields : Fields) :
    seedMembers seed children (seedMembers seed children fields).result =
      seedMembers seed children fields := by
  have hfilled : ∀ child ∈ children,
      seed child (Entries.get? (childKey child) (seedMembers seed children fields).result) =
        seed child (Entries.get? (childKey child) fields) := by
    intro child hchild
    rw [get?_seedMembers hs hapart hchild, hs.again]
  have hresult : (seedMembers seed children (seedMembers seed children fields).result).result =
      (seedMembers seed children fields).result := by
    apply seedMembers_of_filled
    intro child hchild
    rw [hfilled child hchild, get?_seedMembers hs hapart hchild]
  have hvalues : (seedMembers seed children (seedMembers seed children fields).result).values =
      (seedMembers seed children fields).values := by
    rw [values_seedMembers hs hapart, values_seedMembers hs hapart]
    refine List.flatMap_congr fun child hchild => ?_
    rw [hfilled child hchild]
  exact (congrArg (Seeded.mk · _) hresult).trans (congrArg (Seeded.mk _) hvalues)

/-! ### Elements -/

theorem seedElements_nil (children : List String) :
    seedElements seed children [] = ⟨[], []⟩ := by
  cases children <;> rfl

theorem seedElements_of_no_children (items : List Json) :
    seedElements seed [] items = ⟨items, []⟩ := by
  cases items <;> rfl

theorem seedElements_congr {other : String → Option Json → Seeded (Option Json)}
    {children : List String} (h : ∀ child ∈ children, ∀ data, seed child data = other child data)
    (items : List Json) :
    seedElements seed children items = seedElements other children items := by
  induction children generalizing items with
  | nil => rw [seedElements_of_no_children, seedElements_of_no_children]
  | cons child children ih =>
    cases items with
    | nil => rfl
    | cons item items =>
      have hrest := fun c hc => h c (List.mem_cons_of_mem child hc)
      simp only [seedElements, h child List.mem_cons_self, ih hrest]

theorem getElem?_seedElements (children : List String) (items : List Json) (i : Nat) :
    (seedElements seed children items).result[i]? =
      items[i]?.map fun item => match children[i]? with
        | some child => (seed child (some item)).result.getD .null
        | none => item := by
  induction items generalizing children i with
  | nil =>
    rw [seedElements_nil]
    rfl
  | cons item items ih =>
    cases children with
    | nil =>
      rw [seedElements_of_no_children]
      cases (item :: items)[i]? <;> rfl
    | cons child children =>
      cases i with
      | zero => rfl
      | succ i => exact ih children i

theorem values_seedElements (children : List String) (items : List Json) :
    (seedElements seed children items).values =
      (children.zip items).flatMap fun place => (seed place.1 (some place.2)).values := by
  induction items generalizing children with
  | nil =>
    rw [seedElements_nil, List.zip_nil_right]
    rfl
  | cons item items ih =>
    cases children with
    | nil => rfl
    | cons child children => exact congrArg (_ ++ ·) (ih children)

theorem seedElements_again (hs : Settles seed) (children : List String) (items : List Json) :
    seedElements seed children (seedElements seed children items).result =
      seedElements seed children items := by
  induction items generalizing children with
  | nil =>
    rw [seedElements_nil]
    exact seedElements_nil children
  | cons item items ih =>
    cases children with
    | nil => rfl
    | cons child children =>
      cases hitem : (seed child (some item)).result with
      | none => exact absurd hitem (hs.present child item)
      | some v =>
        have hagain : seed child (some v) = seed child (some item) := by
          rw [← hitem, hs.again]
        simp only [seedElements, hitem, Option.getD_some, hagain, ih]

/-! ### One field -/

variable {node : FieldNode} {path : String} {data : Option Json}

theorem seedField_of_members (h : servesMembers node = true) (path : String)
    (data : Option Json) :
    seedField seed node path data =
      let found := seedMembers seed node.children (Schema.membersOf (given node data))
      ⟨some (.obj found.result), found.values ++ [(path, some (.obj found.result))]⟩ := by
  rw [seedField, if_pos h]

theorem seedField_of_elements {items : List Json} (h : servesMembers node = false)
    (hitems : servedElements? node data = some items) (path : String) :
    seedField seed node path data =
      let found := seedElements seed node.children items
      ⟨some (.arr found.result), found.values ++ [(path, some (.arr found.result))]⟩ := by
  rw [seedField, h, hitems]
  rfl

theorem seedField_of_kept (h : servesMembers node = false)
    (hitems : servedElements? node data = none) (path : String) :
    seedField seed node path data = ⟨given node data, [(path, given node data)]⟩ := by
  rw [seedField, h, hitems]
  rfl

/-- What is filled in at a field. -/
inductive Filling where
  /-- The members of an object, by the children. -/
  | members (fields : Fields)
  /-- The elements of an array, by the children. -/
  | elements (items : List Json)
  /-- Nothing: the data stay as they are. -/
  | kept (data : Option Json)

/-- What is filled in at a field with these data. -/
def filling (node : FieldNode) (data : Option Json) : Filling :=
  if servesMembers node then
    .members (Schema.membersOf (given node data))
  else
    match servedElements? node data with
    | some items => .elements items
    | none => .kept (given node data)

/-- What becomes of it. -/
def Filling.seeded (seed : String → Option Json → Seeded (Option Json)) (children : List String)
    (path : String) : Filling → Seeded (Option Json)
  | .members fields =>
    let found := seedMembers seed children fields
    ⟨some (.obj found.result), found.values ++ [(path, some (.obj found.result))]⟩
  | .elements items =>
    let found := seedElements seed children items
    ⟨some (.arr found.result), found.values ++ [(path, some (.arr found.result))]⟩
  | .kept data => ⟨data, [(path, data)]⟩

theorem Filling.seeded_congr {other : String → Option Json → Seeded (Option Json)}
    {children : List String} (h : ∀ child ∈ children, ∀ data, seed child data = other child data)
    (path : String) (f : Filling) :
    f.seeded seed children path = f.seeded other children path := by
  cases f with
  | members fields => rw [seeded, seeded, seedMembers_congr h]
  | elements items => rw [seeded, seeded, seedElements_congr h]
  | kept data => rfl

theorem seedField_eq_seeded (node : FieldNode) (path : String) (data : Option Json) :
    seedField seed node path data = (filling node data).seeded seed node.children path := by
  unfold seedField filling
  split
  · rfl
  · cases servedElements? node data <;> rfl

theorem seedField_congr {other : String → Option Json → Seeded (Option Json)}
    (h : ∀ child ∈ node.children, ∀ data, seed child data = other child data) :
    seedField seed node path data = seedField other node path data := by
  rw [seedField_eq_seeded, seedField_eq_seeded, Filling.seeded_congr h]

theorem given_given : given node (given node data) = given node data := by
  unfold given
  cases data with
  | some v => rfl
  | none => cases node.schema.get? "default" <;> rfl

theorem servedElements?_given :
    servedElements? node (given node data) = servedElements? node data := by
  unfold servedElements?
  rw [given_given]

theorem servedElements?_arr {items : List Json} (h : servedElements? node data = some items)
    (others : List Json) : servedElements? node (some (.arr others)) = some others := by
  unfold servedElements? at h ⊢
  split at h
  · next hserves =>
    rw [if_pos hserves]
    rfl
  · cases h

/-- What filling in one field gives is filled in. -/
theorem seedField_again (hs : Settles seed) (hapart : KeysApart node.children) (path : String)
    (data : Option Json) :
    seedField seed node path (seedField seed node path data).result =
      seedField seed node path data := by
  cases hmembers : servesMembers node with
  | true =>
    rw [seedField_of_members hmembers path data]
    rw [seedField_of_members hmembers]
    simp only [given, Schema.membersOf, Option.orElse_some, Option.bind_some, fields?,
      Option.getD_some, seedMembers_again hs hapart]
  | false =>
    cases helements : servedElements? node data with
    | some items =>
      rw [seedField_of_elements hmembers helements,
        seedField_of_elements hmembers (servedElements?_arr helements _)]
      simp only [seedElements_again hs]
    | none =>
      rw [seedField_of_kept hmembers helements,
        seedField_of_kept hmembers (servedElements?_given.trans helements), given_given]

theorem result_seedField_ne_none (path : String) (v : Json) :
    (seedField seed node path (some v)).result ≠ none := by
  cases hmembers : servesMembers node with
  | true =>
    rw [seedField_of_members hmembers]
    exact Option.some_ne_none _
  | false =>
    cases helements : servedElements? node (some v) with
    | some items =>
      rw [seedField_of_elements hmembers helements]
      exact Option.some_ne_none _
    | none =>
      rw [seedField_of_kept hmembers helements]
      exact Option.some_ne_none _

theorem keysApart_of_nested (h : Nested index) {node : FieldNode}
    (hnode : index.get? path = some node) : KeysApart node.children := by
  intro child hchild other hother hkey
  obtain ⟨segment, rfl⟩ := h path node hnode child hchild
  obtain ⟨segment', rfl⟩ := h path node hnode other hother
  rw [childKey_append, childKey_append] at hkey
  rw [hkey]

/-- Filling in defaults a second time does nothing. -/
theorem settles_seedAt (h : Nested index) (fuel : Nat) : Settles (seedAt index fuel) := by
  induction fuel with
  | zero => exact ⟨fun _ _ => Option.some_ne_none _, fun _ _ => rfl⟩
  | succ fuel ih =>
    constructor
    · intro path v
      cases hnode : index.get? path with
      | none =>
        rw [seedAt_of_none hnode]
        exact Option.some_ne_none _
      | some node =>
        rw [seedAt_of_some hnode]
        exact result_seedField_ne_none path v
    · intro path data
      cases hnode : index.get? path with
      | none => rw [seedAt_of_none hnode, seedAt_of_none hnode]
      | some node =>
        rw [seedAt_of_some hnode, seedAt_of_some hnode]
        exact seedField_again ih (keysApart_of_nested h hnode) path data

/-! ### The fuel suffices -/

/-- The number of fields at and below a path. -/
def reach (index : FieldIndex) (path : String) : Nat :=
  index.entries.countP fun entry => entry.1 == path || Pointer.isDescendant path entry.1

theorem reach_le_size (index : FieldIndex) (path : String) : reach index path ≤ index.size :=
  List.countP_le_length

/-- A child reaches fewer fields than its parent, which it does not reach. -/
theorem reach_append_lt (hnode : index.get? path = some node) (segment : String) :
    reach index (Pointer.append path segment) < reach index path := by
  obtain ⟨front, back, hentries⟩ := List.append_of_mem (SortedMap.mem_entries_iff.2 hnode)
  have hbelow : ∀ entry ∈ index.entries,
      (entry.1 == Pointer.append path segment ||
        Pointer.isDescendant (Pointer.append path segment) entry.1) = true →
      (entry.1 == path || Pointer.isDescendant path entry.1) = true := by
    intro entry _ hentry
    have happend := Pointer.isDescendant_append path segment
    rcases Bool.or_eq_true_iff.1 hentry with heq | hdescendant
    · rw [eq_of_beq heq, happend, Bool.or_true]
    · rw [Pointer.isDescendant_trans happend hdescendant, Bool.or_true]
  have hself : (path == Pointer.append path segment ||
      Pointer.isDescendant (Pointer.append path segment) path) = false := by
    rw [Pointer.not_isDescendant_append, Bool.or_false]
    apply beq_false_of_ne
    intro heq
    have hloop := Pointer.isDescendant_append path segment
    rw [← heq, Pointer.not_isDescendant_self] at hloop
    cases hloop
  have hfront := List.countP_mono_left (l := front) fun entry hentry =>
    hbelow entry (by rw [hentries]; exact List.mem_append_left _ hentry)
  have hback := List.countP_mono_left (l := back) fun entry hentry =>
    hbelow entry (by rw [hentries]; exact List.mem_append_right _ (List.mem_cons_of_mem _ hentry))
  unfold reach
  rw [hentries, List.countP_append, List.countP_append, List.countP_cons_of_neg (by simp [hself]),
    List.countP_cons_of_pos (by simp)]
  omega

theorem seedAt_succ_of_reach (h : Nested index) {fuel : Nat} (hreach : reach index path ≤ fuel)
    (data : Option Json) : seedAt index (fuel + 1) path data = seedAt index fuel path data := by
  induction fuel generalizing path data with
  | zero =>
    cases hnode : index.get? path with
    | none => rw [seedAt_of_none hnode, seedAt_of_none hnode]
    | some node =>
      have := reach_append_lt hnode ""
      omega
  | succ fuel ih =>
    cases hnode : index.get? path with
    | none => rw [seedAt_of_none hnode, seedAt_of_none hnode]
    | some node =>
      rw [seedAt_of_some hnode, seedAt_of_some hnode]
      refine seedField_congr fun child hchild data => ih ?_ data
      obtain ⟨segment, rfl⟩ := h path node hnode child hchild
      have := reach_append_lt hnode segment
      omega

/-- The data at a path with all defaults filled in. -/
def fill (index : FieldIndex) (path : String) (data : Option Json) : Seeded (Option Json) :=
  seedAt index index.size path data

theorem fill_of_none (h : index.get? path = none) (data : Option Json) :
    fill index path data = ⟨data, []⟩ :=
  seedAt_of_none h index.size data

theorem fill_of_some (h : Nested index) (hnode : index.get? path = some node)
    (data : Option Json) : fill index path data = seedField (fill index) node path data :=
  (seedAt_succ_of_reach h (reach_le_size index path) data).symm.trans
    (seedAt_of_some hnode index.size data)

/-- A field without children has its data, or else its default. -/
theorem fill_of_childless (h : Nested index) (hnode : index.get? path = some node)
    (hchildren : node.children = []) (data : Option Json) :
    fill index path data = ⟨given node data, [(path, given node data)]⟩ := by
  have hmembers : servesMembers node = false := by
    rw [servesMembers, hchildren]
    exact Bool.and_false _
  have hitems : servedElements? node data = none := by
    rw [servedElements?, hchildren]
    exact if_neg (by simp)
  rw [fill_of_some h hnode, seedField_of_kept hmembers hitems]

theorem settles_fill (h : Nested index) : Settles (fill index) := settles_seedAt h index.size

/-! ### One segment down -/

/-- Below a listed name stands what seeding makes of the member. -/
theorem child?_fill_of_mem (h : Nested index) (hnode : index.get? path = some node)
    (hmembers : servesMembers node = true) {segment : String}
    (hchild : Pointer.append path segment ∈ node.children) (data : Option Json) :
    (fill index path data).result.bind (child? segment) =
      (fill index (Pointer.append path segment)
        (Entries.get? segment (Schema.membersOf (given node data)))).result := by
  rw [fill_of_some h hnode, seedField_of_members hmembers]
  have hfound := get?_seedMembers (settles_fill h) (keysApart_of_nested h hnode) hchild
    (Schema.membersOf (given node data))
  rw [childKey_append] at hfound
  exact hfound

theorem child?_fill_of_notMem (h : Nested index) (hnode : index.get? path = some node)
    (hmembers : servesMembers node = true) {segment : String}
    (hchild : Pointer.append path segment ∉ node.children) (data : Option Json) :
    (fill index path data).result.bind (child? segment) =
      Entries.get? segment (Schema.membersOf (given node data)) := by
  rw [fill_of_some h hnode, seedField_of_members hmembers]
  refine get?_seedMembers_of_ne (settles_fill h) ?_ _
  intro child hmem hkey
  obtain ⟨other, rfl⟩ := h path node hnode child hmem
  rw [childKey_append] at hkey
  exact hchild (hkey ▸ hmem)

/-- At the number of an element stands what seeding by the child at its position makes of it. -/
theorem child?_fill_of_element (h : Nested index) (hnode : index.get? path = some node)
    (hmembers : servesMembers node = false) {items : List Json}
    (hitems : servedElements? node data = some items) {segment : String} {i : Nat}
    (hindex : Pointer.index? segment = some i) :
    (fill index path data).result.bind (child? segment) =
      items[i]?.bind fun item => match node.children[i]? with
        | some child => (fill index child (some item)).result
        | none => some item := by
  rw [fill_of_some h hnode, seedField_of_elements hmembers hitems]
  show (Pointer.index? segment).bind _ = _
  rw [hindex, Option.bind_some, getElem?_seedElements]
  cases items[i]? with
  | none => rfl
  | some item =>
    rw [Option.map_some, Option.bind_some]
    cases node.children[i]? with
    | none => rfl
    | some child =>
      cases hfound : (fill index child (some item)).result with
      | none => exact absurd hfound ((settles_fill h).present child item)
      | some v =>
        show some ((fill index child (some item)).result.getD .null) = _
        rw [hfound]
        exact hfound.symm

/-! ### The fields afterwards -/

/-- The fields with the values that seeding gives them. -/
def seededIndex (index : FieldIndex) (data : Option Json) : FieldIndex :=
  assign (fill index "" data).values index

theorem get?_seededIndex {n : FieldNode} (hn : (seededIndex index data).get? path = some n) :
    ∃ node, index.get? path = some node ∧
      n = { node with value := (written? path (fill index "" data).values).getD node.value } := by
  rw [seededIndex, get?_assign] at hn
  obtain ⟨node, hnode, heq⟩ := Option.map_eq_some_iff.1 hn
  exact ⟨node, hnode, heq.symm⟩

/-! ### The form of the fields -/

/-- A field without its value. -/
def form (node : FieldNode) : FieldNode := { node with value := none }

/-- The fields differ at most in their values. -/
def SameForm (index other : FieldIndex) : Prop :=
  ∀ path, (index.get? path).map form = (other.get? path).map form

variable {other : FieldIndex}

theorem SameForm.symm (h : SameForm index other) : SameForm other index :=
  fun path => (h path).symm

theorem SameForm.trans {third : FieldIndex} (h : SameForm index other)
    (h' : SameForm other third) : SameForm index third :=
  fun path => (h path).trans (h' path)

theorem SameForm.exists_get? (h : SameForm index other) {path : String} {n : FieldNode}
    (hn : index.get? path = some n) : ∃ m, other.get? path = some m ∧ form m = form n := by
  have hform := h path
  rw [hn, Option.map_some, eq_comm] at hform
  exact Option.map_eq_some_iff.1 hform

theorem SameForm.size_eq (h : SameForm index other) : index.size = other.size := by
  apply SortedMap.size_eq_of_isSome_eq
  intro path
  rw [← Option.isSome_map, h path, Option.isSome_map]

theorem sameForm_assign (values : List (String × Option Json)) (index : FieldIndex) :
    SameForm (assign values index) index :=
  map_get?_assign (fun _ _ => rfl) values index

/-- Two fields of one form that take one value are equal. -/
theorem SameForm.assign_eq (h : SameForm index other)
    {values : List (String × Option Json)}
    (hunwritten : ∀ path, written? path values = none → index.get? path = other.get? path) :
    assign values index = assign values other := by
  apply SortedMap.eq_of_get?_eq
  intro path
  rw [get?_assign, get?_assign]
  cases hwritten : written? path values with
  | none => rw [hunwritten path hwritten]
  | some value =>
    have htake := congrArg (Option.map fun n : FieldNode => { n with value }) (h path)
    rw [Option.map_map, Option.map_map] at htake
    exact htake

theorem seedField_form (seed : String → Option Json → Seeded (Option Json)) (node : FieldNode) :
    seedField seed (form node) path data = seedField seed node path data := rfl

/-- What filling in gives at a path hangs on the form of the fields that it comes to from there. -/
theorem seedAt_eq_of_form {p : String → Prop}
    (hform : ∀ path, p path → (index.get? path).map form = (other.get? path).map form)
    (hchildren : ∀ path node, p path → index.get? path = some node → ∀ child ∈ node.children,
      p child) (fuel : Nat) {path : String} (hpath : p path) (data : Option Json) :
    seedAt index fuel path data = seedAt other fuel path data := by
  induction fuel generalizing path data with
  | zero => rfl
  | succ fuel ih =>
    have hsame := hform path hpath
    cases hnode : index.get? path with
    | none =>
      rw [hnode, Option.map_none, eq_comm, Option.map_eq_none_iff] at hsame
      rw [seedAt_of_none hnode, seedAt_of_none hsame]
    | some node =>
      rw [hnode, Option.map_some, eq_comm] at hsame
      obtain ⟨node', hnode', heq⟩ := Option.map_eq_some_iff.1 hsame
      rw [seedAt_of_some hnode, seedAt_of_some hnode', ← seedField_form _ node, ← heq]
      refine seedField_congr fun child hchild data => ih ?_ data
      have hlist : (form node').children = (form node).children := by rw [heq]
      exact hchildren path node hpath hnode child (hlist ▸ hchild)

theorem SameForm.seedAt_eq (h : SameForm index other) (fuel : Nat) (path : String)
    (data : Option Json) : seedAt index fuel path data = seedAt other fuel path data :=
  seedAt_eq_of_form (p := fun _ => True) (fun path _ => h path) (fun _ _ _ _ _ _ => trivial) fuel
    trivial data

theorem SameForm.fill_eq (h : SameForm index other) (path : String) (data : Option Json) :
    fill index path data = fill other path data := by
  rw [fill, fill, h.size_eq, h.seedAt_eq]

theorem SameForm.nested (h : SameForm index other) (hnested : Nested other) : Nested index := by
  intro path node hnode child hchild
  obtain ⟨node', hnode', heq⟩ := h.exists_get? hnode
  have hchildren : (form node').children = (form node).children := by rw [heq]
  apply hnested path node' hnode' child
  exact hchildren.symm ▸ hchild

end Defaults

namespace Pipeline

open Defaults FieldTree Json

variable (prepared : Json) (data : Option Json) (selections : Selections)

theorem nested_plainIndex [Patterns] :
    Nested (plainIndex prepared data selections) := nested_build _ _

/-- Seeding starts at the root field, which every form has. -/
theorem apply_plainIndex [Patterns] :
    Defaults.apply (plainIndex prepared data selections) data =
      ((fill (plainIndex prepared data selections) "" data).result,
        seededIndex (plainIndex prepared data selections) data) := by
  have hroot : (plainIndex prepared data selections).contains "" = true :=
    SortedMap.contains_iff.2 ⟨_, get?_build_root _ _⟩
  rw [Defaults.apply, hroot]
  rfl

theorem data_plainModel [Patterns] :
    (plainModel prepared data selections).data =
      (fill (plainIndex prepared data selections) "" data).result :=
  congrArg Prod.fst (apply_plainIndex prepared data selections)

theorem index_plainModel [Patterns] :
    (plainModel prepared data selections).index =
      seededIndex (plainIndex prepared data selections) data :=
  congrArg Prod.snd (apply_plainIndex prepared data selections)

theorem sameForm_plainModel [Patterns] :
    SameForm (plainModel prepared data selections).index (plainIndex prepared data selections) := by
  rw [index_plainModel]
  exact sameForm_assign _ _

variable {prepared data selections}

/-- Where nothing describes properties or branches and the data are no array, the root has no
children. -/
theorem get?_plainIndex_of_leaf [Patterns] (hsituated : situated prepared data = prepared)
    (hbranches : branches? (Schema.membersOf (some prepared)) = none)
    (hproperties : prepared.getFields? "properties" = none) (hitems : data.bind items? = none) :
    (plainIndex prepared data .empty).get? "" =
      some (node .empty prepared data "" .root false []) := by
  show (build .empty (situated prepared data) data).get? "" = _
  rw [hsituated, get?_build_root, below_of_leaf hbranches hproperties hitems]

/-- Seeding loses no field. -/
theorem exists_get?_plainModel [Patterns] {path : String} {node : FieldNode}
    (h : (plainIndex prepared data selections).get? path = some node) :
    ∃ value, (plainModel prepared data selections).index.get? path = some { node with value } := by
  rw [index_plainModel, seededIndex, get?_assign, h]
  exact ⟨_, rfl⟩

/-- The root of a model is the one of the tree, up to its value. -/
theorem root?_plainModel [Patterns] (prepared : Json) (data : Option Json)
    (selections : Selections) : ∃ value, (plainModel prepared data selections).root? =
      some { node (pinnedCombinators selections (situated prepared data))
        (chosenSchema selections (situated prepared data)) data "" .root false
        (below (pinnedCombinators selections (situated prepared data))
          (chosenSchema selections (situated prepared data)) data "").1 with value } :=
  exists_get?_plainModel (get?_build_root _ _)

end Pipeline
end SchemaForm
