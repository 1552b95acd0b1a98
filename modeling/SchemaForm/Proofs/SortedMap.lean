import SchemaForm.SortedMap

/-!
# Look-up in sorted maps

What each operation does to look-up. A map built from a list of pairs answers with the last pair
of a key, so a look-up in it is a look-up in the reversed list.
-/

namespace SchemaForm

namespace SortedMap

variable {α β : Type}

/-! ### Look-up in lists of entries -/

@[simp] theorem lookup_nil (key : String) : lookup key ([] : List (String × α)) = none := rfl

theorem lookup_cons (key k : String) (v : α) (rest : List (String × α)) :
    lookup key ((k, v) :: rest) = if k = key then some v else lookup key rest := rfl

theorem lookup_append (key : String) (xs ys : List (String × α)) :
    lookup key (xs ++ ys) = (lookup key xs).orElse fun _ => lookup key ys := by
  induction xs with
  | nil => rfl
  | cons head rest ih =>
    obtain ⟨k, v⟩ := head
    simp only [List.cons_append, lookup_cons]
    by_cases h : k = key
    · simp [h]
    · simp [h, ih]

theorem lookup_eq_none_iff {key : String} {entries : List (String × α)} :
    lookup key entries = none ↔ ∀ entry ∈ entries, entry.1 ≠ key := by
  induction entries with
  | nil => simp
  | cons head rest ih =>
    obtain ⟨k, v⟩ := head
    by_cases h : k = key <;> simp [lookup_cons, h, ih]

theorem mem_of_lookup {key : String} {v : α} {entries : List (String × α)}
    (h : lookup key entries = some v) : (key, v) ∈ entries := by
  induction entries with
  | nil => cases h
  | cons head rest ih =>
    obtain ⟨k, w⟩ := head
    rw [lookup_cons] at h
    by_cases hk : k = key
    · rw [if_pos hk] at h
      cases h
      exact hk ▸ List.mem_cons_self
    · rw [if_neg hk] at h
      exact List.mem_cons_of_mem _ (ih h)

/-- In sorted entries no key comes twice, so every entry is found. -/
theorem lookup_of_mem {key : String} {v : α} {entries : List (String × α)}
    (hs : entries.Pairwise fun a b => a.1 < b.1) (h : (key, v) ∈ entries) :
    lookup key entries = some v := by
  induction entries with
  | nil => cases h
  | cons head rest ih =>
    obtain ⟨hhead, hrest⟩ := List.pairwise_cons.1 hs
    obtain ⟨k, w⟩ := head
    rcases List.mem_cons.1 h with heq | hmem
    · cases heq
      simp [lookup_cons]
    · have hlt : k < key := hhead _ hmem
      have hne : k ≠ key := by
        intro heq
        exact String.lt_irrefl key (heq ▸ hlt)
      rw [lookup_cons, if_neg hne]
      exact ih hrest hmem

/-- Where no key comes twice, every entry is found. -/
theorem lookup_eq_some_iff {key : String} {v : α} {entries : List (String × α)}
    (h : (entries.map Prod.fst).Nodup) : lookup key entries = some v ↔ (key, v) ∈ entries := by
  refine ⟨mem_of_lookup, fun hmem => ?_⟩
  induction entries with
  | nil => cases hmem
  | cons head rest ih =>
    obtain ⟨k, w⟩ := head
    rw [List.map_cons, List.nodup_cons] at h
    rcases List.mem_cons.1 hmem with heq | hmem
    · cases heq
      simp [lookup_cons]
    · have hne : k ≠ key := by
        rintro rfl
        exact h.1 (List.mem_map.2 ⟨_, hmem, rfl⟩)
      rw [lookup_cons, if_neg hne]
      exact ih h.2 hmem

theorem lookup_of_perm {xs ys : List (String × α)} (h : xs.Perm ys)
    (hnodup : (xs.map Prod.fst).Nodup) (key : String) : lookup key xs = lookup key ys := by
  apply Option.ext
  intro v
  rw [lookup_eq_some_iff hnodup, lookup_eq_some_iff ((h.map Prod.fst).nodup_iff.1 hnodup),
    h.mem_iff]

theorem nodup_fst_filterMap (g : α → Option β) {entries : List (String × α)}
    (h : (entries.map Prod.fst).Nodup) :
    ((entries.filterMap fun entry => (g entry.2).map fun b => (entry.1, b)).map
      Prod.fst).Nodup := by
  refine List.Nodup.sublist ?_ h
  induction entries with
  | nil => simp
  | cons head rest ih =>
    rw [List.map_cons, List.nodup_cons] at h
    rw [List.filterMap_cons, List.map_cons]
    cases g head.2 with
    | none => exact (ih h.2).trans (List.sublist_cons_self _ _)
    | some b => exact (ih h.2).cons_cons head.1

/-- Among the results for some entries look-up finds the result for the value of a key. -/
theorem lookup_filterMap (g : α → Option β) {entries : List (String × α)}
    (h : (entries.map Prod.fst).Nodup) (key : String) :
    lookup key (entries.filterMap fun entry => (g entry.2).map fun b => (entry.1, b)) =
      (lookup key entries).bind g := by
  induction entries with
  | nil => rfl
  | cons head rest ih =>
    obtain ⟨k, v⟩ := head
    rw [List.map_cons, List.nodup_cons] at h
    have hrest := ih h.2
    rw [lookup_cons, List.filterMap_cons]
    by_cases hk : k = key
    · have hnone : lookup key rest = none := by
        rw [lookup_eq_none_iff]
        rintro entry hmem rfl
        exact h.1 (hk ▸ List.mem_map.2 ⟨entry, hmem, rfl⟩)
      rw [hnone] at hrest
      cases hg : g v with
      | none => simp [hg, hk, hrest]
      | some b => simp [hg, hk, lookup_cons]
    · cases hg : g v with
      | none => simp [hk, hrest]
      | some b => simp [hk, hrest, lookup_cons]

theorem lookup_insertEntry (key k : String) (v : α) (entries : List (String × α)) :
    lookup key (insertEntry k v entries) = if k = key then some v else lookup key entries := by
  induction entries with
  | nil => rfl
  | cons head rest ih =>
    obtain ⟨k', v'⟩ := head
    simp only [insertEntry]
    split
    · rfl
    · split
      · next heq =>
        subst heq
        by_cases h : k = key <;> simp [lookup_cons, h]
      · next hne =>
        simp only [lookup_cons, ih]
        by_cases h : k' = key
        · have : k ≠ key := by
            intro hk
            exact hne (hk.trans h.symm)
          simp [h, this]
        · simp [h]

/-- Among the entries with some of the keys look-up finds the values of these keys. -/
theorem lookup_filter (p : String → Bool) (key : String) (entries : List (String × α)) :
    lookup key (entries.filter fun entry => p entry.1) =
      if p key then lookup key entries else none := by
  induction entries with
  | nil => simp
  | cons head rest ih =>
    obtain ⟨k, v⟩ := head
    by_cases hk : p k = true
    · rw [List.filter_cons_of_pos (by exact hk), lookup_cons, ih, lookup_cons]
      by_cases h : k = key
      · rw [if_pos h, if_pos h, ← h, if_pos hk]
      · rw [if_neg h, if_neg h]
    · rw [List.filter_cons_of_neg (by exact hk), ih, lookup_cons]
      by_cases h : k = key
      · rw [← h, if_neg hk, if_neg hk]
      · rw [if_neg h]

/-- Writing the value that is there changes nothing. -/
theorem insertEntry_of_lookup {key : String} {v : α} {entries : List (String × α)}
    (hs : entries.Pairwise fun a b => a.1 < b.1) (h : lookup key entries = some v) :
    insertEntry key v entries = entries := by
  induction entries with
  | nil => cases h
  | cons head rest ih =>
    obtain ⟨k, w⟩ := head
    obtain ⟨hhead, hrest⟩ := List.pairwise_cons.1 hs
    simp only [insertEntry]
    rw [lookup_cons] at h
    by_cases hk : k = key
    · rw [if_pos hk] at h
      cases h
      rw [hk, if_neg (String.lt_irrefl key), if_pos rfl]
    · rw [if_neg hk] at h
      have hlt : k < key := hhead _ (mem_of_lookup h)
      rw [if_neg (String.lt_asymm hlt), if_neg (Ne.symm hk), ih hrest h]

/-- A key below all keys of sorted entries has no value there. -/
theorem lookup_eq_none_of_lt {key : String} {entries : List (String × α)}
    (h : ∀ entry ∈ entries, key < entry.1) : lookup key entries = none := by
  rw [lookup_eq_none_iff]
  intro entry hmem heq
  have hlt := h entry hmem
  rw [heq] at hlt
  exact String.lt_irrefl key hlt

theorem lookup_cons_eq_none_of_lt {key k : String} {v : α} {rest : List (String × α)}
    (hs : ((k, v) :: rest).Pairwise fun a b => a.1 < b.1) (hlt : key < k) :
    lookup key ((k, v) :: rest) = none := by
  apply lookup_eq_none_of_lt
  intro entry hmem
  rcases List.mem_cons.1 hmem with rfl | hmem
  · exact hlt
  · exact String.lt_trans hlt ((List.pairwise_cons.1 hs).1 entry hmem)

/-- Sorted entries are known from look-up. -/
theorem eq_of_lookup_eq {xs ys : List (String × α)} (hx : xs.Pairwise fun a b => a.1 < b.1)
    (hy : ys.Pairwise fun a b => a.1 < b.1) (h : ∀ key, lookup key xs = lookup key ys) :
    xs = ys := by
  induction xs generalizing ys with
  | nil =>
    cases ys with
    | nil => rfl
    | cons y ys =>
      have hfirst := h y.1
      rw [lookup_cons, if_pos rfl] at hfirst
      cases hfirst
  | cons x xs ih =>
    obtain ⟨k, v⟩ := x
    have hk := h k
    rw [lookup_cons, if_pos rfl] at hk
    cases ys with
    | nil => cases hk
    | cons y ys =>
      obtain ⟨k', v'⟩ := y
      have hk' := h k'
      rw [lookup_cons k' k', if_pos rfl] at hk'
      -- the smaller of the two first keys would be missing on the other side
      have heq : k = k' := by
        rcases Std.lt_trichotomy k k' with hlt | heq | hlt
        · rw [lookup_cons_eq_none_of_lt hy hlt] at hk
          cases hk
        · exact heq
        · rw [lookup_cons_eq_none_of_lt hx hlt] at hk'
          cases hk'
      subst heq
      rw [lookup_cons, if_pos rfl] at hk
      cases hk
      obtain ⟨hheadx, hx⟩ := List.pairwise_cons.1 hx
      obtain ⟨hheady, hy⟩ := List.pairwise_cons.1 hy
      rw [ih hx hy]
      intro key
      by_cases hkey : k = key
      · subst hkey
        rw [lookup_eq_none_of_lt hheadx, lookup_eq_none_of_lt hheady]
      · have hrest := h key
        rwa [lookup_cons, lookup_cons, if_neg hkey, if_neg hkey] at hrest

/-! ### Look-up in maps -/

@[simp] theorem get?_empty (key : String) : (empty : SortedMap α).get? key = none := rfl

theorem get?_insert (key k : String) (v : α) (m : SortedMap α) :
    (m.insert k v).get? key = if k = key then some v else m.get? key :=
  lookup_insertEntry key k v m.entries

@[simp] theorem get?_insert_self (key : String) (v : α) (m : SortedMap α) :
    (m.insert key v).get? key = some v := by
  rw [get?_insert, if_pos rfl]

theorem get?_erase (key k : String) (m : SortedMap α) :
    (m.erase k).get? key = if k = key then none else m.get? key := by
  show lookup key (m.entries.filter fun entry => entry.1 != k) = _
  rw [lookup_filter (· != k)]
  by_cases h : k = key
  · simp [h]
  · rw [if_neg h, if_pos (bne_iff_ne.2 (Ne.symm h))]
    rfl

/-- The entries with some of the keys. -/
def restrict (p : String → Bool) (m : SortedMap α) : SortedMap α :=
  ⟨m.entries.filter fun entry => p entry.1, m.sorted.filter _⟩

theorem get?_restrict (p : String → Bool) (key : String) (m : SortedMap α) :
    (m.restrict p).get? key = if p key then m.get? key else none :=
  lookup_filter p key m.entries

theorem insert_eq_self_iff {key : String} {v : α} {m : SortedMap α} :
    m.insert key v = m ↔ m.get? key = some v := by
  constructor
  · intro h
    rw [← h, get?_insert_self]
  · intro h
    exact SortedMap.ext (insertEntry_of_lookup m.sorted h)

theorem mem_entries_iff {key : String} {v : α} {m : SortedMap α} :
    (key, v) ∈ m.entries ↔ m.get? key = some v :=
  ⟨lookup_of_mem m.sorted, mem_of_lookup⟩

theorem mem_keys_iff {key : String} {m : SortedMap α} :
    key ∈ m.keys ↔ ∃ v, m.get? key = some v := by
  unfold keys
  rw [List.mem_map]
  constructor
  · rintro ⟨⟨k, v⟩, hmem, rfl⟩
    exact ⟨v, mem_entries_iff.1 hmem⟩
  · rintro ⟨v, hv⟩
    exact ⟨(key, v), mem_entries_iff.2 hv, rfl⟩

theorem nodup_keys (m : SortedMap α) : m.keys.Nodup := by
  rw [keys, List.Nodup, List.pairwise_map]
  apply m.sorted.imp
  intro a b hlt heq
  exact String.lt_irrefl _ (heq ▸ hlt)

theorem eq_of_get?_eq {m n : SortedMap α} (h : ∀ key, m.get? key = n.get? key) : m = n :=
  SortedMap.ext (eq_of_lookup_eq m.sorted n.sorted h)

theorem get?_map (f : String → α → β) (key : String) (m : SortedMap α) :
    (m.map f).get? key = (m.get? key).map (f key) := by
  obtain ⟨entries, hs⟩ := m
  show lookup key (entries.map fun entry => (entry.1, f entry.1 entry.2)) =
    (lookup key entries).map (f key)
  clear hs
  induction entries with
  | nil => rfl
  | cons head rest ih =>
    obtain ⟨k, v⟩ := head
    simp only [List.map_cons, lookup_cons, ih]
    by_cases h : k = key
    · subst h
      simp
    · simp [h]

/-- Maps with the same keys have the same size. -/
theorem size_eq_of_isSome_eq {m : SortedMap α} {n : SortedMap β}
    (h : ∀ key, (m.get? key).isSome = (n.get? key).isSome) : m.size = n.size := by
  have hkeys : (m.map fun _ _ => ()) = n.map fun _ _ => () := by
    apply eq_of_get?_eq
    intro key
    have hkey := h key
    rw [get?_map, get?_map]
    cases hm : m.get? key <;> cases hn : n.get? key <;> simp_all
  have hlength := congrArg (fun keys : SortedMap Unit => keys.entries.length) hkeys
  show m.entries.length = n.entries.length
  simpa [map] using hlength

theorem get?_modify (f : α → α) (key k : String) (m : SortedMap α) :
    (m.modify k f).get? key = (m.get? key).map fun v => if key = k then f v else v :=
  get?_map _ key m

/-- Changes at several keys, each of which is changed once at most. -/
theorem get?_foldl_modify (f : β → α → α) {updates : List (String × β)}
    (h : (updates.map Prod.fst).Nodup) (key : String) (m : SortedMap α) :
    (updates.foldl (fun m update => m.modify update.1 (f update.2)) m).get? key =
      (m.get? key).map fun v => (lookup key updates).elim v fun b => f b v := by
  induction updates generalizing m with
  | nil => simp
  | cons head rest ih =>
    obtain ⟨k, b⟩ := head
    rw [List.map_cons, List.nodup_cons] at h
    rw [List.foldl_cons, ih h.2, get?_modify, Option.map_map]
    apply congrArg (Option.map · (m.get? key))
    funext v
    by_cases hk : k = key
    · have hnone : lookup key rest = none := by
        rw [lookup_eq_none_iff]
        rintro entry hmem rfl
        exact h.1 (hk ▸ List.mem_map.2 ⟨entry, hmem, rfl⟩)
      simp [hnone, hk, lookup_cons]
    · simp [hk, Ne.symm hk, lookup_cons]

theorem get?_insertAll (key : String) (pairs : List (String × α)) (m : SortedMap α) :
    (m.insertAll pairs).get? key = (lookup key pairs.reverse).orElse fun _ => m.get? key := by
  induction pairs generalizing m with
  | nil => rfl
  | cons head rest ih =>
    obtain ⟨k, v⟩ := head
    have h := ih (m.insert k v)
    rw [get?_insert] at h
    rw [List.reverse_cons, lookup_append]
    refine h.trans ?_
    cases lookup key rest.reverse with
    | some w => rfl
    | none =>
      simp only [lookup_cons]
      by_cases hk : k = key <;> simp [hk]

/-- The last pair of a key counts. -/
theorem get?_ofList (key : String) (pairs : List (String × α)) :
    (ofList pairs).get? key = lookup key pairs.reverse := by
  have h := get?_insertAll key pairs (empty : SortedMap α)
  rw [get?_empty] at h
  refine h.trans ?_
  cases lookup key pairs.reverse <;> rfl

theorem contains_iff {key : String} {m : SortedMap α} :
    m.contains key = true ↔ ∃ v, m.get? key = some v :=
  Option.isSome_iff_exists

end SortedMap

namespace SortedSet

theorem has_add (key k : String) (s : SortedSet) :
    has key (add k s) = (decide (k = key) || has key s) := by
  unfold has add SortedMap.contains
  rw [SortedMap.get?_insert]
  by_cases h : k = key <;> simp [h]

theorem has_foldl_add_iff {key : String} {keys : List String} {s : SortedSet} :
    has key (keys.foldl (fun s k => add k s) s) = true ↔ key ∈ keys ∨ has key s = true := by
  induction keys generalizing s with
  | nil => simp
  | cons k rest ih =>
    rw [List.foldl_cons, ih, has_add, List.mem_cons]
    simp only [Bool.or_eq_true, decide_eq_true_eq]
    constructor
    · rintro (h | rfl | h)
      · exact Or.inl (Or.inr h)
      · exact Or.inl (Or.inl rfl)
      · exact Or.inr h
    · rintro ((rfl | h) | h)
      · exact Or.inr (Or.inl rfl)
      · exact Or.inl h
      · exact Or.inr (Or.inr h)

theorem has_ofList_iff {key : String} {keys : List String} :
    has key (ofList keys) = true ↔ key ∈ keys := by
  refine has_foldl_add_iff.trans ?_
  constructor
  · rintro (h | h)
    · exact h
    · cases h
  · exact Or.inl

/-- Sets with the same elements are equal. -/
theorem eq_of_has_iff {s t : SortedSet} (h : ∀ key, has key s = true ↔ has key t = true) :
    s = t := by
  apply SortedMap.eq_of_get?_eq
  intro key
  have hkey := Bool.eq_iff_iff.2 (h key)
  unfold has SortedMap.contains at hkey
  cases hs : s.get? key <;> cases ht : t.get? key <;> simp_all

theorem mem_toList_iff {key : String} {s : SortedSet} : key ∈ toList s ↔ has key s = true := by
  unfold toList has
  rw [SortedMap.contains_iff, SortedMap.mem_keys_iff]

end SortedSet
end SchemaForm
