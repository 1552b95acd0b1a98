import SchemaForm.Proofs.Json.Update
import SchemaForm.Proofs.Pointer.Verbatim
import SchemaForm.Proofs.Schema.KeysUnique

/-!
# Where a traversal goes

A traversal gives the place of each schema object as a text. `addresses` gives the segments that
lead there instead, in the same order: they select the visited object, and no two visits share
them. The place is the pointer of the segments without escapes, so it says where the visit is as
long as the segments are verbatim, and no two places agree as long as no segment holds a slash.
-/

namespace SchemaForm.Schema

open Json Pointer

/-! ### The addresses of a schema -/

/-- The schemas that a value holds, each behind the segments that lead from the value to it. -/
def heldAt : Option Holder → Json → List (List String × Json)
  | some .byName, .obj entries => entries.map fun entry => ([entry.1], entry.2)
  | some .single, .obj entries => [([], .obj entries)]
  | some .list, .arr items => items.zipIdx.map fun item => ([toString item.2], item.1)
  | _, _ => []

/-- The schemas directly below a schema with these keywords, each behind the segments that lead
from the schema to it. -/
def belowAt (keywords : Fields) : List (List String × Json) :=
  keywords.flatMap fun entry =>
    (heldAt (holder? entry.1) entry.2).map fun inner => (entry.1 :: inner.1, inner.2)

theorem mem_belowAt_iff {keywords : Fields} {e : List String × Json} :
    e ∈ belowAt keywords ↔ ∃ entry ∈ keywords, ∃ inner ∈ heldAt (holder? entry.1) entry.2,
      (entry.1 :: inner.1, inner.2) = e := by
  simp only [belowAt, List.mem_flatMap, List.mem_map]

theorem held_eq_map (holder : Option Holder) (v : Json) :
    held holder v = (heldAt holder v).map fun inner => (bare inner.1, inner.2) := by
  unfold held heldAt
  split <;> simp [bare_singleton, bare_nil]

theorem below_eq_map (keywords : Fields) :
    below keywords = (belowAt keywords).map fun e => (bare e.1, e.2) := by
  rw [below, belowAt, List.map_flatMap]
  congr 1
  funext entry
  rw [held_eq_map, List.map_map, List.map_map]
  refine List.map_congr_left fun inner hinner => ?_
  show ("/" ++ entry.1 ++ bare inner.1, inner.2) = (bare ([entry.1] ++ inner.1), inner.2)
  rw [bare_append, bare_singleton]

theorem mem_below_of_mem_belowAt {keywords : Fields} {e : List String × Json}
    (he : e ∈ belowAt keywords) : (bare e.1, e.2) ∈ below keywords := by
  rw [below_eq_map]
  exact List.mem_map.2 ⟨e, he, rfl⟩

/-- The schema objects of a schema, each behind the segments that lead to it, in the order of the
visits. -/
def addresses : Json → List (List String × Json)
  | .obj keywords =>
    ([], .obj keywords) :: (belowAt keywords).attach.flatMap fun e =>
      (addresses e.1.2).map fun a => (e.1.1 ++ a.1, a.2)
  | _ => []
termination_by schema => schema.size
decreasing_by exact size_lt_of_mem_below (mem_below_of_mem_belowAt e.2)

theorem addresses_of_not_obj {v : Json} (h : v.isObj = false) : addresses v = [] := by
  cases v with
  | obj keywords => cases h
  | _ => rw [addresses]; nofun

theorem addresses_obj (keywords : Fields) :
    addresses (.obj keywords) =
      ([], .obj keywords) :: (belowAt keywords).flatMap fun e =>
        (addresses e.2).map fun a => (e.1 ++ a.1, a.2) := by
  rw [addresses]
  congr 1
  rw [List.flatMap_def, List.flatMap_def]
  congr 1
  exact List.attach_map_val (f := fun e : List String × Json =>
    (addresses e.2).map fun a => (e.1 ++ a.1, a.2))

theorem mem_addresses_obj_iff {keywords : Fields} {a : List String × Json} :
    a ∈ addresses (.obj keywords) ↔ a = ([], .obj keywords) ∨
      ∃ e ∈ belowAt keywords, ∃ lower ∈ addresses e.2, (e.1 ++ lower.1, lower.2) = a := by
  simp only [addresses_obj, List.mem_cons, List.mem_flatMap, List.mem_map]

/-- A visit is to the place that has the segments of the address as they are. -/
theorem visits_eq_map (place : String) (schema : Json) :
    visits place schema = (addresses schema).map fun a => (place ++ bare a.1, a.2) := by
  induction schema using induct_below generalizing place with
  | leaf v hv => rw [visits_of_not_obj hv, addresses_of_not_obj hv, List.map_nil]
  | object keywords ih =>
    rw [visits_obj, addresses_obj, below_eq_map, List.flatMap_map, List.map_cons, List.map_flatMap]
    congr 1
    · rw [bare_nil, String.append_empty]
    · refine List.flatMap_congr fun e he => ?_
      rw [ih _ (mem_below_of_mem_belowAt he), List.map_map]
      refine List.map_congr_left fun a ha => ?_
      simp only [Function.comp_apply, bare_append, String.append_assoc]

/-- No keyword with schemas is the empty text. -/
theorem address_ne_slash {schema : Json} {a : List String × Json} (ha : a ∈ addresses schema) :
    a.1 ≠ [""] := by
  cases schema with
  | obj keywords =>
    rcases mem_addresses_obj_iff.1 ha with rfl | ⟨e, he, lower, -, rfl⟩
    · exact (List.cons_ne_nil _ _).symm
    · obtain ⟨entry, -, inner, hinner, rfl⟩ := mem_belowAt_iff.1 he
      intro hslash
      have hkey : entry.1 = "" := (List.cons.inj hslash).1
      rw [hkey] at hinner
      cases hinner
  | _ => rw [addresses_of_not_obj rfl] at ha; cases ha

/-! ### What an address leads to -/

theorem atSegments?_heldAt {holder : Option Holder} {v : Json} (hkeys : v.KeysUnique)
    (hsize : v.size ≤ maxIndex + 1) {inner : List String × Json} (h : inner ∈ heldAt holder v) :
    atSegments? (some v) inner.1 = some inner.2 := by
  unfold heldAt at h
  split at h
  · next entries =>
    obtain ⟨entry, hentry, rfl⟩ := List.mem_map.1 h
    exact Entries.get?_of_mem (keysUnique_obj_iff.1 hkeys).nodup hentry
  · rw [List.mem_singleton.1 h]
    rfl
  · next items =>
    obtain ⟨⟨item, index⟩, hitem, rfl⟩ := List.mem_map.1 h
    have hget : items[index]? = some item := List.mk_mem_zipIdx_iff_getElem?.1 hitem
    have hlt : index < items.length := (List.getElem?_eq_some_iff.1 hget).1
    have hlength := length_le_sizeItems items
    rw [size] at hsize
    show (Pointer.index? (toString index)).bind (fun i => items[i]?) = some item
    rw [Pointer.index?_toString (by omega)]
    exact hget
  · cases h

theorem atSegments?_belowAt {keywords : Fields} (hkeys : MembersUnique keywords)
    (hsize : (Json.obj keywords).size ≤ maxIndex + 1) {e : List String × Json}
    (he : e ∈ belowAt keywords) : atSegments? (some (.obj keywords)) e.1 = some e.2 := by
  obtain ⟨entry, hentry, inner, hinner, rfl⟩ := mem_belowAt_iff.1 he
  have hle := size_le_sizeEntries hentry
  rw [size] at hsize
  have hchild : child? entry.1 (.obj keywords) = some entry.2 :=
    Entries.get?_of_mem hkeys.nodup hentry
  rw [atSegments?_cons, Option.bind_some, hchild]
  exact atSegments?_heldAt (hkeys.values entry hentry) (by omega) hinner

/-- The segments of an address select the schema object that is visited. -/
theorem atSegments?_address {schema : Json} (hkeys : schema.KeysUnique)
    (hsize : schema.size ≤ maxIndex + 1) {a : List String × Json} (ha : a ∈ addresses schema) :
    atSegments? (some schema) a.1 = some a.2 := by
  induction schema using induct_below generalizing a with
  | leaf v hv => rw [addresses_of_not_obj hv] at ha; cases ha
  | object keywords ih =>
    rcases mem_addresses_obj_iff.1 ha with rfl | ⟨e, he, lower, hlower, rfl⟩
    · rfl
    · have hbelow := mem_below_of_mem_belowAt he
      have hlt := size_lt_of_mem_below hbelow
      rw [keysUnique_obj_iff] at hkeys
      rw [atSegments?_append, atSegments?_belowAt hkeys hsize he]
      exact ih _ hbelow (keysUnique_of_mem_below hkeys hbelow)
        (Nat.le_trans (Nat.le_of_lt hlt) hsize) hlower

/-! ### Different visits -/

/-- Neither list of segments begins with the other one. -/
def Diverge (xs ys : List String) : Prop := ¬ xs <+: ys ∧ ¬ ys <+: xs

theorem Diverge.of_ne {x y : String} (h : x ≠ y) (xs ys : List String) :
    Diverge (x :: xs) (y :: ys) :=
  ⟨fun hbegins => h (List.cons_prefix_cons.1 hbegins).1,
    fun hbegins => h (List.cons_prefix_cons.1 hbegins).1.symm⟩

theorem Diverge.cons {xs ys : List String} (h : Diverge xs ys) (x : String) :
    Diverge (x :: xs) (x :: ys) :=
  ⟨fun hbegins => h.1 (List.cons_prefix_cons.1 hbegins).2,
    fun hbegins => h.2 (List.cons_prefix_cons.1 hbegins).2⟩

/-- What continues diverging segments differs. -/
theorem Diverge.append_ne {xs ys : List String} (h : Diverge xs ys) (us vs : List String) :
    xs ++ us ≠ ys ++ vs := by
  intro heq
  rcases List.prefix_or_prefix_of_prefix (List.prefix_append xs us)
      (heq ▸ List.prefix_append ys vs) with hbegins | hbegins
  · exact h.1 hbegins
  · exact h.2 hbegins

theorem pairwise_heldAt (holder : Option Holder) {v : Json} (hkeys : v.KeysUnique) :
    (heldAt holder v).Pairwise fun a b => Diverge a.1 b.1 := by
  unfold heldAt
  split
  · next entries =>
    have hnodup := (keysUnique_obj_iff.1 hkeys).nodup
    rw [List.pairwise_map]
    exact (List.pairwise_map.1 hnodup).imp fun hne => Diverge.of_ne hne [] []
  · exact List.pairwise_singleton _ _
  · next items =>
    have hnumbers : (items.zipIdx.map Prod.snd).Nodup := by
      rw [List.zipIdx_map_snd]
      exact List.nodup_range'
    rw [List.pairwise_map]
    refine (List.pairwise_map.1 hnumbers).imp fun hne => Diverge.of_ne (fun heq => ?_) [] []
    exact hne (Pointer.toString_index_injective heq)
  · exact List.Pairwise.nil

theorem pairwise_belowAt {keywords : Fields} (hkeys : MembersUnique keywords) :
    (belowAt keywords).Pairwise fun a b => Diverge a.1 b.1 := by
  rw [belowAt, List.pairwise_flatMap]
  constructor
  · intro entry hentry
    rw [List.pairwise_map]
    exact (pairwise_heldAt _ (hkeys.values entry hentry)).imp fun h => h.cons entry.1
  · refine (List.pairwise_map.1 hkeys.nodup).imp fun {x y} hne a ha b hb => ?_
    obtain ⟨inner, -, rfl⟩ := List.mem_map.1 ha
    obtain ⟨other, -, rfl⟩ := List.mem_map.1 hb
    exact Diverge.of_ne hne _ _

/-- No segments lead to two visits. -/
theorem nodup_addresses {schema : Json} (hkeys : schema.KeysUnique) :
    ((addresses schema).map Prod.fst).Nodup := by
  refine List.pairwise_map.2 ?_
  induction schema using induct_below with
  | leaf v hv => rw [addresses_of_not_obj hv]; exact List.Pairwise.nil
  | object keywords ih =>
    rw [keysUnique_obj_iff] at hkeys
    rw [addresses_obj, List.pairwise_cons, List.pairwise_flatMap]
    refine ⟨?_, ?_, ?_⟩
    · intro b hb
      obtain ⟨e, he, hb⟩ := List.mem_flatMap.1 hb
      obtain ⟨lower, -, rfl⟩ := List.mem_map.1 hb
      obtain ⟨entry, -, inner, -, rfl⟩ := mem_belowAt_iff.1 he
      exact (List.cons_ne_nil _ _).symm
    · intro e he
      have hbelow := mem_below_of_mem_belowAt he
      rw [List.pairwise_map]
      exact (ih _ hbelow (keysUnique_of_mem_below hkeys hbelow)).imp fun hne heq =>
        hne (List.append_cancel_left heq)
    · refine (pairwise_belowAt hkeys).imp fun {x y} hdiverge a ha b hb => ?_
      obtain ⟨a, -, rfl⟩ := List.mem_map.1 ha
      obtain ⟨b, -, rfl⟩ := List.mem_map.1 hb
      exact hdiverge.append_ne _ _

/-! ### Places as pointers -/

/-- A traversal visits the schema objects at the places of their addresses, each once, and they are
found there by the pointer of the address. The place itself is that pointer without escapes: it
names the address if all segments are verbatim, and then leads to the visited object as well, and
two places are different if no segment holds a slash. -/
theorem traverse_resolves_verbatim (schema : Document)
    (hsize : (schema : Json).size ≤ maxIndex + 1) :
    traverse schema = (addresses schema).map (fun a => ("#" ++ bare a.1, a.2)) ∧
      ((addresses schema).map Prod.fst).Nodup ∧
      (∀ a ∈ addresses schema, getAt (some ↑schema) (build a.1) = .ok (some a.2)) ∧
      (∀ a ∈ addresses schema,
        parse (bare a.1) = .ok a.1 ↔ ∀ segment ∈ a.1, Verbatim segment) ∧
      (∀ a ∈ addresses schema, (∀ segment ∈ a.1, Verbatim segment) →
        getAt (some ↑schema) (bare a.1) = .ok (some a.2)) ∧
      (addresses schema).Pairwise fun a b => (∀ segment ∈ a.1, '/' ∉ segment.toList) →
        (∀ segment ∈ b.1, '/' ∉ segment.toList) → "#" ++ bare a.1 ≠ "#" ++ bare b.1 := by
  have hread : ∀ a ∈ addresses schema, ∀ pointer, parse pointer = .ok a.1 →
      getAt (some ↑schema) pointer = .ok (some a.2) := by
    intro a ha pointer hparse
    rw [getAt_of_parse hparse, atSegments?_address schema.keysUnique hsize ha]
  have hbare : ∀ a ∈ addresses schema,
      (parse (bare a.1) = .ok a.1 ↔ ∀ segment ∈ a.1, Verbatim segment) :=
    fun a ha => parse_bare_iff (address_ne_slash ha)
  have hapart := nodup_addresses schema.keysUnique
  refine ⟨visits_eq_map "#" schema, hapart, ?_, hbare, ?_, ?_⟩
  · exact fun a ha => hread a ha _ (parse_build (address_ne_slash ha))
  · exact fun a ha hverbatim => hread a ha _ ((hbare a ha).2 hverbatim)
  · refine (List.pairwise_map.1 hapart).imp fun {a b} hne ha hb heq => ?_
    have htext := congrArg String.toList heq
    rw [String.toList_append, String.toList_append] at htext
    exact hne (eq_of_bare_eq ha hb (String.toList_inj.1 (List.append_cancel_left htext)))

/-- An element schema in an option. -/
def nestedOption : Json := .obj [("anyOf", .arr [.obj [("items", .obj [])]])]

/-- The element schema is found by the place at which it is visited. -/
theorem traverse_resolves_nestedOption :
    nestedOption.KeysUnique ∧ nestedOption.size ≤ maxIndex + 1 ∧
      ("#/anyOf/0/items", .obj []) ∈ traverse nestedOption ∧
      getAt (some nestedOption) "/anyOf/0/items" = .ok (some (.obj [])) := by
  have hkeys : nestedOption.KeysUnique := by simp [nestedOption]
  have hsize : nestedOption.size ≤ maxIndex + 1 := by decide
  have hmem : (["anyOf", "0", "items"], .obj []) ∈ addresses nestedOption := by
    have hfirst : Nat.repr 0 = "0" := rfl
    simp [nestedOption, addresses_obj, belowAt, heldAt, holder?, hfirst]
  obtain ⟨htraverse, -, -, -, hfound, -⟩ := traverse_resolves_verbatim ⟨nestedOption, hkeys⟩ hsize
  refine ⟨hkeys, hsize, ?_, hfound _ hmem (by decide)⟩
  rw [htraverse]
  exact List.mem_map.2 ⟨_, hmem, rfl⟩

/-- A name with a slash, and one that spells it with an escape. -/
def slashedNames : Json :=
  .obj [("properties", .obj [("a/b", .obj []), ("a~1b", .obj [("type", .str "string")])])]

/-- A name with slashes that looks like the way to a name below another one. -/
def nameLikePlace : Json :=
  .obj [("properties", .obj [("a/properties/b", .obj []),
    ("a", .obj [("properties", .obj [("b", .obj [])])])])]

/-- A name with a slash is not found by its place, a name with an escape is taken for another one,
and two objects of one schema have the same place. -/
theorem places_misread_slashedNames :
    traverse slashedNames =
        [("#", slashedNames), ("#/properties/a/b", .obj []),
          ("#/properties/a~1b", .obj [("type", .str "string")])] ∧
      getAt (some slashedNames) "/properties/a/b" = .ok none ∧
      getAt (some slashedNames) "/properties/a~1b" = .ok (some (.obj [])) ∧
      ¬ ((traverse nameLikePlace).map Prod.fst).Nodup := by
  refine ⟨rfl, rfl, rfl, ?_⟩
  decide

end SchemaForm.Schema
