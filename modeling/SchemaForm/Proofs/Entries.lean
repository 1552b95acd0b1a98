import Mathlib.Data.List.Nodup
import SchemaForm.Entries

/-!
# Look-up in ordered entries

What insertions and removals do to look-up and to the keys. Every operation keeps distinct keys
distinct.
-/

namespace SchemaForm.Entries

open List

variable {α β : Type}

@[simp] theorem get?_nil (key : String) : get? key ([] : Entries α) = none := rfl

theorem get?_cons (key k : String) (v : α) (rest : Entries α) :
    get? key ((k, v) :: rest) = if k = key then some v else get? key rest := rfl

@[simp] theorem keys_nil : keys ([] : Entries α) = [] := rfl

@[simp] theorem keys_cons (entry : String × α) (rest : Entries α) :
    keys (entry :: rest) = entry.1 :: keys rest := rfl

theorem mem_of_get? {key : String} {v : α} {entries : Entries α} (h : get? key entries = some v) :
    (key, v) ∈ entries := by
  induction entries with
  | nil => cases h
  | cons head rest ih =>
    obtain ⟨k, w⟩ := head
    rw [get?_cons] at h
    by_cases hk : k = key
    · rw [if_pos hk] at h
      cases h
      exact hk ▸ List.mem_cons_self
    · rw [if_neg hk] at h
      exact List.mem_cons_of_mem _ (ih h)

/-- Where no key comes twice, look-up finds every entry. -/
theorem get?_of_mem {entries : Entries α} (h : (keys entries).Nodup) {entry : String × α}
    (hentry : entry ∈ entries) : get? entry.1 entries = some entry.2 := by
  induction entries with
  | nil => cases hentry
  | cons head rest ih =>
    obtain ⟨k, v⟩ := head
    rw [keys_cons, List.nodup_cons] at h
    rw [get?_cons]
    rcases List.mem_cons.1 hentry with rfl | hentry
    · exact if_pos rfl
    · rw [if_neg]
      · exact ih h.2 hentry
      · intro hk
        exact h.1 (hk ▸ List.mem_map.2 ⟨entry, hentry, rfl⟩)

theorem get?_eq_some_iff {entries : Entries α} (h : (keys entries).Nodup) {key : String} {v : α} :
    get? key entries = some v ↔ (key, v) ∈ entries :=
  ⟨mem_of_get?, get?_of_mem h⟩

theorem get?_eq_none_iff {key : String} {entries : Entries α} :
    get? key entries = none ↔ key ∉ keys entries := by
  induction entries with
  | nil => simp
  | cons head rest ih =>
    obtain ⟨k, v⟩ := head
    rw [get?_cons, keys_cons, List.mem_cons, not_or]
    by_cases hk : k = key
    · simp [hk]
    · rw [if_neg hk, ih]
      exact ⟨fun h => ⟨Ne.symm hk, h⟩, fun h => h.2⟩

theorem get?_insert (key k : String) (v : α) (entries : Entries α) :
    get? key (insert k v entries) = if k = key then some v else get? key entries := by
  induction entries with
  | nil => rfl
  | cons head rest ih =>
    obtain ⟨k', v'⟩ := head
    simp only [insert]
    by_cases hk' : k' = k
    · subst hk'
      rw [if_pos rfl, get?_cons, get?_cons]
      by_cases h : k' = key <;> simp [h]
    · rw [if_neg hk', get?_cons, get?_cons, ih]
      by_cases h : k' = key
      · have hk : k ≠ key := fun hk => hk' (h.trans hk.symm)
        rw [if_pos h, if_pos h, if_neg hk]
      · rw [if_neg h, if_neg h]

/-- Writing the value that is there changes nothing. -/
theorem insert_of_get? {key : String} {v : α} {entries : Entries α}
    (h : get? key entries = some v) : insert key v entries = entries := by
  induction entries with
  | nil => cases h
  | cons head rest ih =>
    obtain ⟨k, w⟩ := head
    rw [get?_cons] at h
    by_cases hk : k = key
    · rw [if_pos hk] at h
      cases h
      rw [insert, if_pos hk, hk]
    · rw [if_neg hk] at h
      rw [insert, if_neg hk, ih h]

/-- The later one of two writes under a key counts. -/
theorem insert_insert (key : String) (v w : α) (entries : Entries α) :
    insert key w (insert key v entries) = insert key w entries := by
  induction entries with
  | nil => simp [insert]
  | cons head rest ih =>
    obtain ⟨k, u⟩ := head
    by_cases hk : k = key
    · simp [insert, hk]
    · simp [insert, hk, ih]

theorem insert_of_notMem {key : String} {entries : Entries α} (h : key ∉ keys entries) (v : α) :
    insert key v entries = entries ++ [(key, v)] := by
  induction entries with
  | nil => rfl
  | cons entry rest ih =>
    rw [keys_cons, List.mem_cons, not_or] at h
    rw [insert, if_neg (Ne.symm h.1), ih h.2, List.cons_append]

theorem keys_insert_of_notMem {key : String} {entries : Entries α} (h : key ∉ keys entries)
    (v : α) : keys (insert key v entries) = keys entries ++ [key] := by
  rw [insert_of_notMem h]
  exact List.map_append

/-- New keys go to the end, in their order. -/
theorem foldl_insert_of_nodup {pairs entries : Entries α} (h : (keys (entries ++ pairs)).Nodup) :
    pairs.foldl (fun acc e => insert e.1 e.2 acc) entries = entries ++ pairs := by
  induction pairs generalizing entries with
  | nil => exact (List.append_nil entries).symm
  | cons e rest ih =>
    have hkeys : keys (entries ++ e :: rest) = keys entries ++ e.1 :: keys rest := by simp [keys]
    have hnew : e.1 ∉ keys entries := by
      rw [hkeys] at h
      intro hmem
      exact (List.nodup_append.1 h).2.2 e.1 hmem e.1 List.mem_cons_self rfl
    have hsplit : entries ++ e :: rest = (entries ++ [e]) ++ rest := by simp
    rw [List.foldl_cons, insert_of_notMem hnew, hsplit]
    rw [hsplit] at h
    exact ih h

theorem keys_insert_of_mem {key : String} {entries : Entries α} (h : key ∈ keys entries) (v : α) :
    keys (insert key v entries) = keys entries := by
  induction entries with
  | nil => cases h
  | cons head rest ih =>
    obtain ⟨k, w⟩ := head
    by_cases hk : k = key
    · rw [insert, if_pos hk, keys_cons, keys_cons, hk]
    · have hrest : key ∈ keys rest := (List.mem_cons.1 h).resolve_left (Ne.symm hk)
      rw [insert, if_neg hk, keys_cons, keys_cons, ih hrest]

/-- An entry that look-up finds stands behind entries of other keys. -/
theorem exists_split_of_get? {key : String} {v : α} {entries : Entries α}
    (h : get? key entries = some v) :
    ∃ before after, entries = before ++ (key, v) :: after ∧ key ∉ keys before := by
  induction entries with
  | nil => cases h
  | cons head rest ih =>
    obtain ⟨k, w⟩ := head
    rw [get?_cons] at h
    by_cases hk : k = key
    · rw [if_pos hk] at h
      cases h
      exact ⟨[], rest, by rw [hk, List.nil_append], List.not_mem_nil⟩
    · rw [if_neg hk] at h
      obtain ⟨before, after, rfl, hbefore⟩ := ih h
      refine ⟨(k, w) :: before, after, List.cons_append.symm, ?_⟩
      rw [keys_cons, List.mem_cons, not_or]
      exact ⟨Ne.symm hk, hbefore⟩

/-- A write takes the place of the entry that look-up finds. -/
theorem insert_append_cons {key : String} {before : Entries α} (h : key ∉ keys before) (v w : α)
    (after : Entries α) :
    insert key w (before ++ (key, v) :: after) = before ++ (key, w) :: after := by
  induction before with
  | nil => exact if_pos rfl
  | cons entry before ih =>
    rw [keys_cons, List.mem_cons, not_or] at h
    rw [List.cons_append, insert, if_neg (Ne.symm h.1), ih h.2, List.cons_append]

theorem erase_of_notMem {key : String} {entries : Entries α} (h : key ∉ keys entries) :
    erase key entries = entries := by
  refine List.filter_eq_self.2 fun entry hentry => ?_
  have hne : entry.1 ≠ key := fun heq => h (List.mem_map.2 ⟨entry, hentry, heq⟩)
  exact bne_iff_ne.2 hne

/-- A new entry that is removed again leaves the others as they were. -/
theorem erase_insert_of_notMem {key : String} {entries : Entries α} (h : key ∉ keys entries)
    (v : α) : erase key (insert key v entries) = entries := by
  have hothers : entries.filter (fun entry => entry.1 != key) = entries := erase_of_notMem h
  rw [insert_of_notMem h, erase, List.filter_append, hothers]
  simp

theorem mem_insert {key : String} {v : α} {entries : Entries α} {entry : String × α}
    (h : entry ∈ insert key v entries) : entry = (key, v) ∨ entry ∈ entries := by
  induction entries with
  | nil => exact Or.inl (List.mem_singleton.1 h)
  | cons head rest ih =>
    obtain ⟨k, w⟩ := head
    simp only [insert] at h
    split at h
    · rcases List.mem_cons.1 h with heq | hmem
      · exact Or.inl heq
      · exact Or.inr (List.mem_cons_of_mem _ hmem)
    · rcases List.mem_cons.1 h with heq | hmem
      · exact Or.inr (heq ▸ List.mem_cons_self)
      · exact (ih hmem).imp_right (List.mem_cons_of_mem _)

theorem nodup_keys_insert {entries : Entries α} (h : (keys entries).Nodup) (key : String)
    (v : α) : (keys (insert key v entries)).Nodup := by
  induction entries with
  | nil => exact List.nodup_singleton key
  | cons head rest ih =>
    obtain ⟨k, w⟩ := head
    rw [keys_cons, List.nodup_cons] at h
    simp only [insert]
    split
    · next heq =>
      rw [keys_cons, List.nodup_cons]
      exact ⟨heq ▸ h.1, h.2⟩
    · next hne =>
      rw [keys_cons, List.nodup_cons]
      refine ⟨fun hmem => ?_, ih h.2⟩
      obtain ⟨entry, hentry, hkey⟩ := List.mem_map.1 hmem
      rcases mem_insert hentry with rfl | hentry
      · exact hne hkey.symm
      · exact h.1 (List.mem_map.2 ⟨entry, hentry, hkey⟩)

theorem nodup_keys_filter {entries : Entries α} (h : (keys entries).Nodup)
    (p : String × α → Bool) : (keys (entries.filter p)).Nodup :=
  (List.filter_sublist.map Prod.fst).nodup h

theorem get?_eraseAll (keys : List String) (key : String) (entries : Entries α) :
    get? key (eraseAll keys entries) = if key ∈ keys then none else get? key entries := by
  induction entries with
  | nil => simp [eraseAll]
  | cons entry rest ih =>
    unfold eraseAll at ih ⊢
    rw [List.filter_cons]
    by_cases hkept : entry.1 ∈ keys
    · rw [if_neg (by simpa using hkept), ih, get?_cons]
      by_cases hkey : entry.1 = key
      · rw [if_pos (hkey ▸ hkept), if_pos (hkey ▸ hkept)]
      · rw [if_neg hkey]
    · rw [if_pos (by simpa using hkept), get?_cons, ih, get?_cons]
      by_cases hkey : entry.1 = key
      · rw [if_pos hkey, if_pos hkey, if_neg (hkey ▸ hkept)]
      · rw [if_neg hkey, if_neg hkey]

/-- Without the first entry the rest stays, its last entry in front. -/
theorem swapErase_head_perm (key : String) (v : α) (rest : Entries α) :
    swapErase key ((key, v) :: rest) ~ rest := by
  rw [swapErase, if_pos rfl]
  cases hlast : rest.getLast? with
  | none => rw [List.getLast?_eq_none_iff.1 hlast]
  | some last =>
    obtain ⟨front, rfl⟩ := List.getLast?_eq_some_iff.1 hlast
    rw [List.dropLast_concat]
    exact (List.perm_append_singleton last front).symm

/-- A removal that moves the last entry leaves some of the entries, in another order. -/
theorem exists_perm_swapErase (key : String) (entries : Entries α) :
    ∃ rest, swapErase key entries ~ rest ∧ rest <+ entries := by
  induction entries with
  | nil => exact ⟨[], List.Perm.refl _, List.Sublist.refl _⟩
  | cons head rest ih =>
    obtain ⟨k, v⟩ := head
    by_cases hk : k = key
    · subst hk
      exact ⟨rest, swapErase_head_perm k v rest, List.sublist_cons_self _ _⟩
    · obtain ⟨kept, hperm, hsub⟩ := ih
      refine ⟨(k, v) :: kept, ?_, hsub.cons_cons _⟩
      rw [swapErase, if_neg hk]
      exact hperm.cons _

theorem nodup_keys_swapErase {entries : Entries α} (h : (keys entries).Nodup) (key : String) :
    (keys (swapErase key entries)).Nodup := by
  obtain ⟨rest, hperm, hsub⟩ := exists_perm_swapErase key entries
  exact ((hperm.map Prod.fst).nodup_iff).2 ((hsub.map Prod.fst).nodup h)

theorem mem_of_mem_swapErase {key : String} {entries : Entries α} {entry : String × α}
    (h : entry ∈ swapErase key entries) : entry ∈ entries := by
  obtain ⟨rest, hperm, hsub⟩ := exists_perm_swapErase key entries
  exact hsub.subset (hperm.mem_iff.1 h)

/-- Look-up does not depend on the order of entries with different keys. -/
theorem get?_of_perm {xs ys : Entries α} (h : xs ~ ys) (hnodup : (keys xs).Nodup) (key : String) :
    get? key xs = get? key ys := by
  have hnodup' : (keys ys).Nodup := (h.map Prod.fst).nodup_iff.1 hnodup
  refine Option.ext fun v => ?_
  rw [get?_eq_some_iff hnodup, get?_eq_some_iff hnodup', h.mem_iff]

theorem get?_swapErase {entries : Entries α} (h : (keys entries).Nodup) (key k : String) :
    get? k (swapErase key entries) = if key = k then none else get? k entries := by
  induction entries with
  | nil => simp [swapErase]
  | cons head rest ih =>
    obtain ⟨k', v⟩ := head
    rw [keys_cons, List.nodup_cons] at h
    by_cases hk' : k' = key
    · subst hk'
      rw [get?_of_perm (swapErase_head_perm k' v rest) (nodup_keys_swapErase (by simp [h]) k'),
        get?_cons]
      by_cases hk : k' = k
      · rw [if_pos hk]
        exact get?_eq_none_iff.2 (hk ▸ h.1)
      · rw [if_neg hk, if_neg hk]
    · rw [swapErase, if_neg hk', get?_cons, get?_cons, ih h.2]
      by_cases hk : k' = k
      · rw [if_pos hk, if_pos hk, if_neg fun h => hk' (hk.trans h.symm)]
      · rw [if_neg hk, if_neg hk]

theorem swapErase_of_get?_eq_none {key : String} {entries : Entries α}
    (h : get? key entries = none) : swapErase key entries = entries := by
  induction entries with
  | nil => rfl
  | cons head rest ih =>
    obtain ⟨k, v⟩ := head
    rw [get?_cons] at h
    by_cases hk : k = key
    · rw [if_pos hk] at h
      cases h
    · rw [if_neg hk] at h
      rw [swapErase, if_neg hk, ih h]

/-- The value of a key after one write for each of several keys, where the value written depends
on the one that is there. -/
theorem get?_foldl_insert {f : Option α → β → α} {writes : Entries β}
    (h : (keys writes).Nodup) (entries : Entries α) (key : String) :
    get? key (writes.foldl (fun acc e => insert e.1 (f (get? e.1 acc) e.2) acc) entries) =
      match get? key writes with
      | none => get? key entries
      | some v => some (f (get? key entries) v) := by
  induction writes generalizing entries with
  | nil => rfl
  | cons write rest ih =>
    obtain ⟨k, v⟩ := write
    rw [keys_cons, List.nodup_cons] at h
    rw [List.foldl_cons, ih h.2, get?_insert, get?_cons]
    by_cases hk : k = key
    · subst hk
      rw [get?_eq_none_iff.2 h.1, if_pos rfl, if_pos rfl]
    · rw [if_neg hk, if_neg hk]

theorem nodup_keys_foldl_insert (f : Option α → β → α) (writes : Entries β) {entries : Entries α}
    (h : (keys entries).Nodup) :
    (keys (writes.foldl (fun acc e => insert e.1 (f (get? e.1 acc) e.2) acc) entries)).Nodup := by
  induction writes generalizing entries with
  | nil => exact h
  | cons write rest ih => exact ih (nodup_keys_insert h _ _)

theorem get?_filter {entries : Entries α} (h : (keys entries).Nodup) (p : α → Bool)
    (key : String) :
    get? key (entries.filter fun e => p e.2) = (get? key entries).filter p := by
  refine Option.ext fun v => ?_
  rw [get?_eq_some_iff (nodup_keys_filter h _), Option.filter_eq_some_iff, get?_eq_some_iff h,
    List.mem_filter]

theorem keys_map (f : String × α → β) (entries : Entries α) :
    keys (entries.map fun entry => (entry.1, f entry)) = keys entries := by
  unfold keys
  rw [List.map_map]
  rfl

theorem get?_map (f : String → α → β) (key : String) (entries : Entries α) :
    get? key (entries.map fun entry => (entry.1, f entry.1 entry.2)) =
      (get? key entries).map (f key) := by
  induction entries with
  | nil => rfl
  | cons entry rest ih =>
    rw [List.map_cons, get?_cons, get?_cons, ih]
    split
    · next h => rw [h]; rfl
    · rfl

end SchemaForm.Entries
