import Mathlib.Data.List.InsertIdx
import SchemaForm.Proofs.Json.Congruent
import SchemaForm.Proofs.Json.Write
import SchemaForm.Proofs.Pipeline.Split
import SchemaForm.Proofs.Store.Spelling

/-!
# Operations on arrays as operations on lists

An operation on the array at a pointer writes the edited list there, so it leaves the store that the
write leaves. Replacing an element is the exception: it writes at the pointer of the element. The two
writes agree on when nothing changes, since every other element equals itself, and they make the same
data, since a write behind more segments is a write of what it makes of the array.
-/

namespace SchemaForm

/-- The edits of the elements of an array that is there. -/
def Edit.NeedsArray : Edit → Prop
  | .insertItem .. | .removeItem .. | .replaceItem .. | .moveItem .. | .swapItems ..
  | .clearItems .. => True
  | .setData .. | .setCombinatorIndex .. | .appendItem .. => False

namespace Store

/-! ### Lists -/

/-- The element at `source` is now at `target`, and the others have kept their order. -/
structure Moves (source target : Nat) (before after : List Json) : Prop where
  element : after[target]? = before[source]?
  others : after.eraseIdx target = before.eraseIdx source

/-- The elements at two positions are exchanged, and the others are where they were. -/
structure Exchanges (i j : Nat) (before after : List Json) : Prop where
  left : after[i]? = before[j]?
  right : after[j]? = before[i]?
  others : ∀ k, k ≠ i → k ≠ j → after[k]? = before[k]?

theorem insertIdx_min_length (items : List Json) (i : Nat) (item : Json) :
    items.insertIdx (min i items.length) item = items.take i ++ item :: items.drop i := by
  induction items generalizing i with
  | nil => simp
  | cons first rest ih =>
    cases i with
    | zero => simp
    | succ i => simpa [Nat.succ_min_succ] using ih i

section Positions

variable {items : List Json}

theorem moved_of_le {source target : Nat} (h : items.length ≤ source ∨ items.length ≤ target) :
    moved source target items = none := by
  unfold moved
  split
  · next item hitem =>
    have hsource : source < items.length := (List.getElem?_eq_some_iff.1 hitem).1
    exact if_neg (by omega)
  · rfl

theorem moved_self (i : Nat) : moved i i items = none := by
  unfold moved
  split <;> simp

/-- An element that is taken out and put in elsewhere has moved. -/
theorem exists_moved {source target : Nat} (hsource : source < items.length)
    (htarget : target < items.length) (hne : source ≠ target) :
    ∃ after, moved source target items = some after ∧ Moves source target items after := by
  have hitem : items[source]? = some items[source] := List.getElem?_eq_getElem hsource
  have hlength : target ≤ (items.eraseIdx source).length := by
    rw [List.length_eraseIdx_of_lt hsource]
    omega
  refine ⟨(items.eraseIdx source).insertIdx target items[source], ?_, ?_, ?_⟩
  · rw [moved, hitem]
    exact if_pos ⟨htarget, hne⟩
  · rw [List.getElem?_insertIdx_self, if_pos hlength, hitem]
  · rw [List.eraseIdx_insertIdx_self]

theorem swapped_of_le {i j : Nat} (h : items.length ≤ i ∨ items.length ≤ j) :
    swapped i j items = none := by
  unfold swapped
  split
  · next a b ha hb =>
    have hi : i < items.length := (List.getElem?_eq_some_iff.1 ha).1
    have hj : j < items.length := (List.getElem?_eq_some_iff.1 hb).1
    omega
  · rfl

theorem swapped_self (i : Nat) : swapped i i items = none := by
  unfold swapped
  split <;> simp

theorem exists_swapped {i j : Nat} (hi : i < items.length) (hj : j < items.length) (hne : i ≠ j) :
    ∃ after, swapped i j items = some after ∧ Exchanges i j items after := by
  have ha : items[i]? = some items[i] := List.getElem?_eq_getElem hi
  have hb : items[j]? = some items[j] := List.getElem?_eq_getElem hj
  refine ⟨(items.set i items[j]).set j items[i], ?_, ?_, ?_, ?_⟩
  · rw [swapped, ha, hb]
    exact if_pos hne
  · rw [List.getElem?_set_ne hne.symm, List.getElem?_set_self hi, hb]
  · rw [List.getElem?_set_self (by simpa using hj), ha]
  · intro k hki hkj
    rw [List.getElem?_set_ne hkj.symm, List.getElem?_set_ne hki.symm]

end Positions

variable {s : Store} {path : String} {segments : List String} {items : List Json}

/-! ### Writes -/

/-- Which pointer a commit is for makes no difference to the store. -/
theorem commit_store [Patterns] (s : Store) (data : Option Json) (dirty dirty' : SortedSet) :
    (s.commit data dirty).store = (s.commit data dirty').store := by
  unfold commit
  split
  split <;> rfl

/-- Where a value is read, a write is accepted. -/
theorem Plain.exists_setData [Patterns] (hs : Plain s) (hp : Pointer.parse path = .ok segments)
    {found : Json} (hfound : Json.atSegments? s.data segments = some found) (value : Json) :
    ∃ after told, s.setData path value = ⟨after, .ok told⟩ := by
  obtain ⟨dirty, hdirty⟩ := Dirty.exists_paths_iff.2 ⟨segments, hp⟩
  obtain ⟨document, hset⟩ := Json.exists_setSegments_of_atSegments? hfound path value
  obtain ⟨cache, -, hcommit⟩ := commit_default hs.config hs.cache (some document) dirty
  rw [setData_of_parse hp hdirty, hset]
  split
  · exact ⟨s, [], rfl⟩
  · exact ⟨_, _, hcommit⟩

/-- Writing the array that is there changes nothing. -/
theorem setData_same [Patterns] (hp : Pointer.parse path = .ok segments)
    (hitems : Json.atSegments? s.data segments = some (.arr items))
    (hkeys : ∀ v ∈ items, v.KeysUnique) : s.setData path (.arr items) = s.unchanged := by
  obtain ⟨dirty, hdirty⟩ := Dirty.exists_paths_iff.2 ⟨segments, hp⟩
  rw [setData_of_parse hp hdirty, hitems]
  exact if_pos (Json.identical_self (.arr hkeys))

/-! ### Operations -/

theorem editItems_of_some [Patterns] (hp : Pointer.parse path = .ok segments)
    {change : List Json → Option (List Json)} {after : List Json}
    (h : ((Json.atSegments? s.data segments).bind Json.items?).bind change = some after) :
    s.editItems path change = s.setData path (.arr after) := by
  unfold editItems
  rw [arrayAt_of_parse hp]
  dsimp only
  rw [h]

theorem editItems_of_none [Patterns] (hp : Pointer.parse path = .ok segments)
    {change : List Json → Option (List Json)}
    (h : ((Json.atSegments? s.data segments).bind Json.items?).bind change = none) :
    s.editItems path change = s.unchanged := by
  unfold editItems
  rw [arrayAt_of_parse hp]
  dsimp only
  rw [h]

/-- Without an array an edit of elements does nothing. -/
theorem edit_of_no_array [Patterns] (hp : Pointer.parse path = .ok segments)
    (hnone : (Json.atSegments? s.data segments).bind Json.items? = none) {edit : Edit}
    (hpath : edit.path = path) (hneeds : edit.NeedsArray) : s.edit edit = s.unchanged := by
  have hitems : ∀ change, s.editItems path change = s.unchanged := by
    intro change
    exact editItems_of_none hp (by rw [hnone, Option.bind_none])
  cases edit with
  | setData => exact hneeds.elim
  | setCombinatorIndex => exact hneeds.elim
  | appendItem => exact hneeds.elim
  | replaceItem named index item =>
    obtain rfl : named = path := hpath
    show s.replaceItem named index item = s.unchanged
    rw [replaceItem, arrayAt_of_parse hp, hnone]
    rfl
  | _ =>
    cases hpath
    exact hitems _

/-- Each operation on the array at a path, with these elements, does to them what a list operation
does and writes the outcome, or changes nothing when a position is out of range. The writes are
accepted. A replacement is the only one whose write is at another pointer, so it may tell others; its
position is one that a segment can give. -/
structure ActsOnList [Patterns] (s : Store) (path : String) (items : List Json) : Prop where
  accepted : ∀ after, ∃ t told, s.setData path (.arr after) = ⟨t, .ok told⟩
  append : ∀ item, s.appendItem path item = s.setData path (.arr (items ++ [item]))
  insert : ∀ index item, s.insertItem path index item =
    s.setData path (.arr (items.take index ++ item :: items.drop index))
  remove : ∀ index < items.length, s.removeItem path index =
    s.setData path (.arr (items.take index ++ items.drop (index + 1)))
  replace : ∀ index < items.length, index ≤ Pointer.maxIndex → ∀ item, ∃ told,
    s.replaceItem path index item = ⟨(s.setData path (.arr (items.set index item))).store, .ok told⟩
  move : ∀ source < items.length, ∀ target < items.length, ∃ after,
    Moves source target items after ∧ s.moveItem path source target = s.setData path (.arr after)
  swap : ∀ i < items.length, ∀ j < items.length, ∃ after,
    Exchanges i j items after ∧ s.swapItems path i j = s.setData path (.arr after)
  clear : s.clearItems path = s.setData path (.arr [])
  out_of_range : ∀ index, items.length ≤ index →
    s.removeItem path index = s.unchanged ∧
      (∀ item, s.replaceItem path index item = s.unchanged) ∧
      ∀ other, s.moveItem path index other = s.unchanged ∧
        s.moveItem path other index = s.unchanged ∧
        s.swapItems path index other = s.unchanged ∧ s.swapItems path other index = s.unchanged

section Elements

variable (hp : Pointer.parse path = .ok segments)
  (hitems : Json.atSegments? s.data segments = some (.arr items))

include hp hitems

theorem appendItem_eq_setData [Patterns] (item : Json) :
    s.appendItem path item = s.setData path (.arr (items ++ [item])) := by
  rw [appendItem, arrayAt_of_parse hp, hitems]
  rfl

theorem editItems_eq_setData [Patterns] {change : List Json → Option (List Json)}
    {after : List Json}
    (h : change items = some after) : s.editItems path change = s.setData path (.arr after) :=
  editItems_of_some hp (by rw [hitems, Option.bind_some, Json.items?, Option.bind_some, h])

theorem editItems_eq_unchanged [Patterns] {change : List Json → Option (List Json)}
    (h : change items = none) : s.editItems path change = s.unchanged :=
  editItems_of_none hp (by rw [hitems, Option.bind_some, Json.items?, Option.bind_some, h])

theorem replaceItem_eq [Patterns] (index : Nat) (item : Json) :
    s.replaceItem path index item =
      if index < items.length then s.setData (Pointer.appendIndex path index) item
      else s.unchanged := by
  rw [replaceItem, arrayAt_of_parse hp, hitems]
  simp [Json.items?]

/-- A replaced element makes the store that writing the edited array makes. -/
theorem exists_replaceItem [Patterns] (hs : Plain s) (hroot : path ≠ "/")
    (hkeys : ∀ v ∈ items, v.KeysUnique)
    {index : Nat} (hlt : index < items.length) (hindex : index ≤ Pointer.maxIndex) (item : Json) :
    ∃ told, s.replaceItem path index item =
      ⟨(s.setData path (.arr (items.set index item))).store, .ok told⟩ := by
  have hp' : Pointer.parse (Pointer.appendIndex path index) = .ok (segments ++ [toString index]) :=
    Pointer.parse_append hp hroot (Pointer.toString_index_ne_empty index)
  obtain ⟨dirty, hdirty⟩ := Dirty.exists_paths_iff.2 ⟨segments, hp⟩
  obtain ⟨dirty', hdirty'⟩ := Dirty.exists_paths_iff.2 ⟨segments ++ [toString index], hp'⟩
  obtain ⟨document, hset, hset'⟩ := Json.exists_setSegments_element hitems hlt hindex path
    (Pointer.appendIndex path index) item
  rw [replaceItem_eq hp hitems, if_pos hlt, setData_of_parse hp hdirty,
    setData_of_parse hp' hdirty', hitems, Json.atSegments?_element hitems hlt hindex, hset, hset',
    Option.any_some, Option.any_some, Json.identical_arr_set hkeys hlt]
  split
  · exact ⟨[], rfl⟩
  · obtain ⟨cache, -, hcommit⟩ := commit_default hs.config hs.cache (some document) dirty'
    refine ⟨notifications s.model dirty' (s.renewed cache (some document)), ?_⟩
    dsimp only
    rw [commit_store s _ dirty dirty', hcommit]

theorem exists_moveItem [Patterns] (hkeys : ∀ v ∈ items, v.KeysUnique) {source target : Nat}
    (hsource : source < items.length) (htarget : target < items.length) :
    ∃ after, Moves source target items after ∧
      s.moveItem path source target = s.setData path (.arr after) := by
  by_cases hne : source = target
  · subst hne
    refine ⟨items, ⟨rfl, rfl⟩, ?_⟩
    rw [setData_same hp hitems hkeys]
    exact editItems_eq_unchanged hp hitems (moved_self source)
  · obtain ⟨after, hmoved, hmoves⟩ := exists_moved hsource htarget hne
    exact ⟨after, hmoves, editItems_eq_setData hp hitems hmoved⟩

theorem exists_swapItems [Patterns] (hkeys : ∀ v ∈ items, v.KeysUnique) {i j : Nat}
    (hi : i < items.length) (hj : j < items.length) :
    ∃ after, Exchanges i j items after ∧ s.swapItems path i j = s.setData path (.arr after) := by
  by_cases hne : i = j
  · subst hne
    refine ⟨items, ⟨rfl, rfl, fun _ _ _ => rfl⟩, ?_⟩
    rw [setData_same hp hitems hkeys]
    exact editItems_eq_unchanged hp hitems (swapped_self i)
  · obtain ⟨after, hswapped, hexchanges⟩ := exists_swapped hi hj hne
    exact ⟨after, hexchanges, editItems_eq_setData hp hitems hswapped⟩

theorem actsOnList [Patterns] (hs : Plain s) (hroot : path ≠ "/")
    (hkeys : ∀ v ∈ items, v.KeysUnique) : s.ActsOnList path items where
  accepted after := hs.exists_setData hp hitems (.arr after)
  append := appendItem_eq_setData hp hitems
  insert index item := by
    rw [← insertIdx_min_length]
    exact editItems_eq_setData hp hitems rfl
  remove index hlt := by
    rw [← List.eraseIdx_eq_take_drop_succ]
    exact editItems_eq_setData hp hitems (if_pos hlt)
  replace index hlt hindex := exists_replaceItem hp hitems hs hroot hkeys hlt hindex
  move source hsource target htarget := exists_moveItem hp hitems hkeys hsource htarget
  swap i hi j hj := exists_swapItems hp hitems hkeys hi hj
  clear := editItems_eq_setData hp hitems rfl
  out_of_range index hle := by
    have hout : ¬ index < items.length := Nat.not_lt.2 hle
    refine ⟨editItems_eq_unchanged hp hitems (if_neg hout), fun item => ?_, fun other =>
      ⟨?_, ?_, ?_, ?_⟩⟩
    · rw [replaceItem_eq hp hitems, if_neg hout]
    · exact editItems_eq_unchanged hp hitems (moved_of_le (.inl hle))
    · exact editItems_eq_unchanged hp hitems (moved_of_le (.inr hle))
    · exact editItems_eq_unchanged hp hitems (swapped_of_le (.inl hle))
    · exact editItems_eq_unchanged hp hitems (swapped_of_le (.inr hle))

end Elements

/-- At a written-out pointer that is not the lone slash, every operation on an array acts as on a
list. Without an array there, adding an element writes an array with it alone, and the other
operations change nothing. -/
theorem items_edited_as_list [Patterns] (hs : Reachable .default s)
    (hroot : Pointer.build segments ≠ "/") :
    (∀ items : List Document,
        Json.atSegments? s.data segments = some (.arr (items.map Document.value)) →
        s.ActsOnList (Pointer.build segments) (items.map Document.value)) ∧
      ((∀ items, Json.atSegments? s.data segments ≠ some (.arr items)) →
        (∀ item, s.appendItem (Pointer.build segments) item =
            s.setData (Pointer.build segments) (.arr [item])) ∧
          ∀ edit : Edit, edit.path = Pointer.build segments → edit.NeedsArray →
            s.edit edit = s.unchanged) := by
  have hp : Pointer.parse (Pointer.build segments) = .ok segments := by
    refine Pointer.parse_build ?_
    rintro rfl
    exact hroot rfl
  constructor
  · intro items hitems
    exact actsOnList hp hitems hs.plain hroot fun _ => Document.keysUnique_of_mem_map
  · intro hnone
    have hnone : (Json.atSegments? s.data segments).bind Json.items? = none := by
      rw [Option.bind_eq_none_iff]
      intro v hv
      cases v with
      | arr items => exact absurd hv (hnone items)
      | _ => rfl
    refine ⟨fun item => ?_, fun edit hpath hneeds => edit_of_no_array hp hnone hpath hneeds⟩
    rw [appendItem, arrayAt_of_parse hp, hnone]
    rfl

/-- A store with an array behind one member, and nothing behind another. -/
theorem items_edited_as_list_listed :
    ∃ s, Reachable .default s ∧ s.data = some (Json.listed [Json.int 1, Json.int 2]) ∧
      s.ActsOnList (Pointer.build ["list"]) [Json.int 1, Json.int 2] ∧
      s.appendItem (Pointer.build ["more"]) .null =
        s.setData (Pointer.build ["more"]) (.arr [.null]) ∧
      s.clearItems (Pointer.build ["more"]) = s.unchanged := by
  let data := some (Json.listed [Json.int 1, Json.int 2])
  obtain ⟨cache, -, hcreate⟩ := create_default .empty data
  have hs : Reachable .default (first .empty cache data) :=
    .created (congrArg Traced.result hcreate)
  have hdata : (first .empty cache data).data = data := by
    show (Pipeline.plainModel (Schema.prepare .empty) data .empty).data = data
    rw [Pipeline.prepare_empty]
    exact Pipeline.data_plainModel_empty rfl
  have hlist : Json.atSegments? data ["list"] = some (.arr [Json.int 1, Json.int 2]) := rfl
  have hmore : Json.atSegments? data ["more"] = none := rfl
  obtain ⟨hacts, -⟩ := @items_edited_as_list _ ["list"] _ hs (by decide)
  obtain ⟨-, hnothing⟩ := @items_edited_as_list _ ["more"] _ hs (by decide)
  rw [hdata] at hacts hnothing
  obtain ⟨happend, hkept⟩ := hnothing (by simp [hmore])
  exact ⟨_, hs, hdata, hacts [⟨Json.int 1, .num _⟩, ⟨Json.int 2, .num _⟩] hlist, happend .null,
    hkept (.clearItems (Pointer.build ["more"])) rfl trivial⟩

end Store
end SchemaForm
