import SchemaForm.Proofs.Pipeline.Closed
import SchemaForm.Regex.Engine

/-!
# What a field lists

A field lists the properties of its settled schema, and behind them the elements of its data. Where
its type takes members and elements, a property may be named like the number of an element: then the
field lists one path twice, and the field kept there is the one of the element. Main statement: where
no field of an index does so, every field but the root is listed by the one above it.
-/

namespace SchemaForm

namespace FieldTree

open Json Schema

variable {pinned : SortedMap Combinator} {schema current : Json} {data : Option Json}
  {segment : String}

/-! ### The children of a field -/

/-- The names of the properties that become fields under a settled schema. -/
def memberNames (schema : Json) (data : Option Json) : List String :=
  if (fieldType schema data).includes .object then
    Entries.keys ((schema.getFields? "properties").getD [])
  else
    []

/-- The number of elements that become fields under a settled schema. -/
def elementCount (schema : Json) (data : Option Json) : Nat :=
  if (fieldType schema data).includes .array then (elements data).length else 0

theorem children_propertiesBelow [Patterns] (schema : Json) (data : Option Json) (path : String) :
    (propertiesBelow pinned schema data path).1 =
      (memberNames schema data).map (Pointer.append path) := by
  unfold propertiesBelow memberNames
  split
  · cases schema.getFields? "properties" with
    | none => rfl
    | some properties => exact children_belowProperties _ properties data path
  · rfl

theorem children_itemsBelow [Patterns] (schema : Json) (data : Option Json) (path : String) :
    (itemsBelow pinned schema data path).1 =
      (List.range (elementCount schema data)).map (Pointer.appendIndex path) := by
  unfold itemsBelow elementCount elements
  split
  · cases data.bind items? with
    | none => rfl
    | some items =>
      rw [List.range_eq_range']
      exact children_belowItems _ _ items path 0
  · rfl

/-- First come the properties, then the elements. -/
theorem children_of_settled [Patterns] (h : settled schema data = some current) (path : String) :
    (below pinned schema data path).1 =
      (memberNames current data).map (Pointer.append path) ++
        (List.range (elementCount current data)).map (Pointer.appendIndex path) := by
  have hproperties := @children_propertiesBelow pinned _ current data path
  have hitems := @children_itemsBelow pinned _ current data path
  rw [below_eq_of_settled, h, ← hproperties, ← hitems]
  rfl

theorem children_of_unsettled [Patterns] (h : settled schema data = none) (path : String) :
    (below pinned schema data path).1 = [] := by
  rw [below_eq_of_settled, h]

theorem isSome_propertyAt_iff :
    (propertyAt segment schema data).isSome = true ↔ segment ∈ memberNames schema data := by
  unfold propertyAt memberNames
  split
  · cases schema.getFields? "properties" with
    | none => simp
    | some properties =>
      rw [Option.bind_some, Option.isSome_map, Option.getD_some, Option.isSome_iff_ne_none, Ne,
        Entries.get?_eq_none_iff, not_not]
  · simp

theorem isSome_elementAt_iff :
    (elementAt segment schema data).isSome = true ↔
      ∃ i < elementCount schema data, segment = toString i := by
  unfold elementAt elementCount elements
  split
  · cases data.bind items? with
    | none => simp
    | some items =>
      rw [Option.bind_some, Option.isSome_map, Option.getD_some]
      constructor
      · intro h
        obtain ⟨found, hfound⟩ := Option.isSome_iff_exists.1 h
        obtain ⟨i, hnumber, hitem⟩ := elementFrom_eq_some hfound
        exact ⟨i, (List.getElem?_eq_some_iff.1 hitem).1, by rw [hnumber, Nat.zero_add]⟩
      · rintro ⟨i, hi, rfl⟩
        obtain ⟨found, hfound⟩ := exists_elementFrom (itemSchema schema)
          ((schema.getItems? "prefixItems").getD []) 0 hi
        rw [Nat.zero_add] at hfound
        rw [hfound]
        rfl
  · simp

/-! ### One path listed twice -/

/-- A property of the settled schema is named like the number of an element. -/
def Doubled [Patterns] (schema : Json) (data : Option Json) : Prop :=
  ∃ current i, settled schema data = some current ∧ i < elementCount current data ∧
    toString i ∈ memberNames current data

theorem not_doubled_of_unsettled [Patterns] (h : settled schema data = none) :
    ¬ Doubled schema data := by
  rintro ⟨current, i, hsettled, -, -⟩
  rw [h] at hsettled
  cases hsettled

theorem keysUnique_settled [Patterns] (h : schema.KeysUnique)
    (hsettled : settled schema data = some current) : current.KeysUnique := by
  induction schema using settled.induct data with
  | case1 schema hbranches =>
    rw [settled_of_no_branches hbranches] at hsettled
    cases hsettled
    exact h
  | case2 schema kind options hbranches hfits =>
    rw [settled_of_no_fit hbranches hfits] at hsettled
    cases hsettled
  | case3 schema kind options hbranches option hfits ih =>
    rw [settled_of_branch hbranches hfits] at hsettled
    refine ih (keysUnique_obj_iff.2 ?_) hsettled
    have hmembers : MembersUnique (membersOf (some schema)) :=
      membersUnique_membersOf fun v hv => Option.some.inj hv ▸ h
    obtain ⟨keyword, -, hoptions⟩ := Selection.mem_of_branches? hbranches
    apply membersUnique_absorb (hmembers.eraseAll _)
    exact keysUnique_arr_iff.1 (hmembers.get? hoptions) option (List.mem_of_find?_eq_some hfits)

theorem keysUnique_elementFrom {last : Json} {schemas items : List Json} {index : Nat}
    {found : Json × Json} (hschemas : ∀ s ∈ schemas, s.KeysUnique) (hlast : last.KeysUnique)
    (h : elementFrom segment last schemas items index = some found) : found.1.KeysUnique := by
  induction items generalizing schemas index with
  | nil => cases h
  | cons item items ih =>
    rw [elementFrom] at h
    split at h
    · cases h
      cases schemas with
      | nil => exact hlast
      | cons first rest => exact hschemas first List.mem_cons_self
    · exact ih (fun s hs => hschemas s (List.mem_of_mem_tail hs)) h

/-- A walk ends at a schema without a repeated key. -/
theorem keysUnique_fragmentAt [Patterns] {segments : List String} {found : Json × Option Json}
    (h : schema.KeysUnique) (hfound : fragmentAt segments schema data = some found) :
    found.1.KeysUnique := by
  induction segments generalizing schema data with
  | nil =>
    cases hfound
    exact h
  | cons first rest ih =>
    rw [fragmentAt] at hfound
    obtain ⟨current, hsettled, hfound⟩ := Option.bind_eq_some_iff.1 hfound
    have hcurrent := keysUnique_settled h hsettled
    rcases (Option.orElse_eq_some _ _ _).1 hfound with helement | ⟨-, hproperty⟩
    · obtain ⟨place, hplace, hfound⟩ := Option.bind_eq_some_iff.1 helement
      apply ih _ hfound
      unfold elementAt at hplace
      split at hplace
      · obtain ⟨items, -, hplace⟩ := Option.bind_eq_some_iff.1 hplace
        obtain ⟨item, hitem, rfl⟩ := Option.map_eq_some_iff.1 hplace
        exact keysUnique_elementFrom (keysUnique_prefixItems hcurrent)
          (keysUnique_itemSchema hcurrent) hitem
      · cases hplace
    · obtain ⟨place, hplace, hfound⟩ := Option.bind_eq_some_iff.1 hproperty
      apply ih _ hfound
      unfold propertyAt at hplace
      split at hplace
      · obtain ⟨property, hget, rfl⟩ := Option.map_eq_some_iff.1 hplace
        obtain ⟨properties, hproperties, hget⟩ := Option.bind_eq_some_iff.1 hget
        exact (hcurrent.getFields? hproperties).get? hget
      · cases hplace

/-- What holds of the schemas and data that walks end at holds of the fields of the index. -/
theorem forall_get?_build_iff [Patterns] (schema : Document) {P : Json → Option Json → Prop} :
    (∀ path n, (build pinned schema data).get? path = some n → P n.schema n.value) ↔
      ∀ segments found, fragmentAt segments schema data = some found → P found.1 found.2 := by
  constructor
  · intro hfields segments found hfound
    rw [← @get?_build pinned] at hfound
    obtain ⟨n, hn, rfl⟩ := Option.map_eq_some_iff.1 hfound
    exact hfields _ n hn
  · intro hwalks path n hn
    obtain ⟨segments, rfl⟩ := exists_segments_of_get?_build hn
    apply hwalks segments (place n)
    rw [← @get?_build pinned, hn]
    rfl

theorem nodup_memberNames (h : schema.KeysUnique) (data : Option Json) :
    (memberNames schema data).Nodup := by
  unfold memberNames
  split
  · cases hproperties : schema.getFields? "properties" with
    | none => exact List.nodup_nil
    | some properties => exact (h.getFields? hproperties).nodup
  · exact List.nodup_nil

/-- A field lists a path twice exactly if a property is named like the number of an element. -/
theorem nodup_children_iff [Patterns] (h : schema.KeysUnique) (path : String) :
    (below pinned schema data path).1.Nodup ↔ ¬ Doubled schema data := by
  cases hsettled : settled schema data with
  | none =>
    rw [children_of_unsettled hsettled]
    simp [not_doubled_of_unsettled hsettled]
  | some current =>
    have hnames : ((memberNames current data).map (Pointer.append path)).Nodup :=
      (nodup_memberNames (keysUnique_settled h hsettled) data).map
        fun _ _ heq => Pointer.append_injective heq
    have hnumbers :
        ((List.range (elementCount current data)).map (Pointer.appendIndex path)).Nodup :=
      List.nodup_range.map fun _ _ heq =>
        Pointer.toString_index_injective (Pointer.append_injective heq)
    rw [children_of_settled hsettled, List.nodup_append]
    constructor
    · rintro ⟨-, -, happart⟩ ⟨current', i, hsettled', hi, hname⟩
      rw [hsettled] at hsettled'
      cases hsettled'
      exact happart _ (List.mem_map_of_mem hname) _ (List.mem_map_of_mem (List.mem_range.2 hi)) rfl
    · intro hsingle
      refine ⟨hnames, hnumbers, ?_⟩
      intro child hchild other hother heq
      obtain ⟨name, hname, rfl⟩ := List.mem_map.1 hchild
      obtain ⟨i, hi, rfl⟩ := List.mem_map.1 hother
      have hnumber : name = toString i := Pointer.append_injective heq
      exact hsingle ⟨current, i, hsettled, List.mem_range.1 hi, hnumber ▸ hname⟩

/-! ### Every field is listed -/

/-- A step of the walk goes to a listed child. -/
theorem mem_children_of_step [Patterns] (h : (fragmentAt [segment] schema data).isSome = true)
    (path : String) : Pointer.append path segment ∈ (below pinned schema data path).1 := by
  rw [fragmentAt] at h
  cases hsettled : settled schema data with
  | none =>
    rw [hsettled] at h
    cases h
  | some current =>
    rw [hsettled, Option.bind_some] at h
    rw [children_of_settled hsettled]
    cases helement : elementAt segment current data with
    | some place =>
      obtain ⟨i, hi, rfl⟩ := isSome_elementAt_iff.1 (by rw [helement]; rfl)
      exact List.mem_append_right _ (List.mem_map_of_mem (List.mem_range.2 hi))
    | none =>
      cases hproperty : propertyAt segment current data with
      | some place =>
        have hname := isSome_propertyAt_iff.1 (by rw [hproperty]; rfl)
        exact List.mem_append_left _ (List.mem_map_of_mem hname)
      | none =>
        rw [helement, hproperty] at h
        cases h

/-- Where no path is listed twice, a segment leads to one place only. -/
theorem exists_place_of_single [Patterns] (hsingle : ¬ Doubled schema data) {rest : List String}
    (h : (fragmentAt (segment :: rest) schema data).isSome = true) :
    ∃ place : Json × Option Json,
      ∀ more, fragmentAt (segment :: more) schema data = fragmentAt more place.1 place.2 := by
  rw [fragmentAt] at h
  cases hsettled : settled schema data with
  | none =>
    rw [hsettled] at h
    cases h
  | some current =>
    rw [hsettled, Option.bind_some] at h
    cases helement : elementAt segment current data with
    | some place =>
      have hproperty : propertyAt segment current data = none := by
        rw [← Option.not_isSome_iff_eq_none]
        intro hsome
        obtain ⟨i, hi, rfl⟩ := isSome_elementAt_iff.1 (by rw [helement]; rfl)
        exact hsingle ⟨current, i, hsettled, hi, isSome_propertyAt_iff.1 hsome⟩
      refine ⟨place, fun more => ?_⟩
      rw [fragmentAt, hsettled, Option.bind_some, helement, hproperty]
      simp
    | none =>
      cases hproperty : propertyAt segment current data with
      | none =>
        rw [helement, hproperty] at h
        cases h
      | some place =>
        refine ⟨place, fun more => ?_⟩
        rw [fragmentAt, hsettled, Option.bind_some, helement, hproperty]
        rfl

/-- Where no field lists a path twice, a walk along several segments comes by the field before the
last one. -/
theorem exists_fragmentAt_concat [Patterns] {segments : List String}
    (hsingle : ∀ segments place, fragmentAt segments schema data = some place →
      ¬ Doubled place.1 place.2)
    (h : (fragmentAt (segments ++ [segment]) schema data).isSome = true) :
    ∃ place, fragmentAt segments schema data = some place ∧
      (fragmentAt [segment] place.1 place.2).isSome = true := by
  induction segments generalizing schema data with
  | nil => exact ⟨_, rfl, h⟩
  | cons first segments ih =>
    obtain ⟨inner, hinner⟩ := exists_place_of_single (hsingle [] _ rfl) h
    rw [List.cons_append, hinner] at h
    rw [hinner]
    apply ih _ h
    intro rest place hplace
    apply hsingle (first :: rest) place
    rw [hinner, hplace]

/-- Every field but the root is a child of the field one segment above it. -/
def Listed (index : FieldIndex) : Prop :=
  ∀ segments segment n, index.get? (Pointer.build (segments ++ [segment])) = some n →
    ∃ above, index.get? (Pointer.build segments) = some above ∧
      Pointer.append (Pointer.build segments) segment ∈ above.children

/-- In an index in which no field lists a path twice every field is listed. -/
theorem listed_build [Patterns] (schema : Document)
    (hsingle : ∀ path n, (build pinned schema data).get? path = some n →
      ¬ Doubled n.schema n.value) : Listed (build pinned schema data) := by
  intro segments segment n hn
  obtain ⟨found, hfound, hstep⟩ : ∃ found, fragmentAt segments schema data = some found ∧
      (fragmentAt [segment] found.1 found.2).isSome = true := by
    apply exists_fragmentAt_concat
      ((forall_get?_build_iff schema (P := fun s d => ¬ Doubled s d)).1 hsingle)
    rw [← @get?_build pinned, hn]
    rfl
  rw [← @get?_build pinned] at hfound
  obtain ⟨above, habove, rfl⟩ := Option.map_eq_some_iff.1 hfound
  obtain ⟨hpath, hnode⟩ := isNode_of_get?_build habove
  refine ⟨above, habove, ?_⟩
  rw [hnode.children_eq, hpath]
  exact mem_children_of_step hstep _

end FieldTree

namespace Defaults

open FieldTree

/-- What seeding changes does not matter to the lists. -/
theorem SameForm.listed {index other : FieldIndex} (h : SameForm index other)
    (hlisted : Listed other) : Listed index := by
  intro segments segment n hn
  obtain ⟨m, hm, -⟩ := h.exists_get? hn
  obtain ⟨above, habove, hmem⟩ := hlisted segments segment m hm
  obtain ⟨found, hfound, hform⟩ := h.symm.exists_get? habove
  have hchildren : (form found).children = (form above).children := by rw [hform]
  refine ⟨found, hfound, ?_⟩
  exact hchildren.symm ▸ hmem

end Defaults
end SchemaForm
