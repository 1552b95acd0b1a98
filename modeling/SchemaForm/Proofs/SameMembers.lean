import SchemaForm.Proofs.Entries

/-!
# Entries up to order

Two lists of entries with the same keys, and related values under each key. The operations on
entries keep that relation, whatever the order of either side: an insertion, the removal that moves
the last entry, new values under the same keys, and a loop that writes one key after the other.
-/

namespace SchemaForm.Entries

variable {α β : Type}

/-- The keys are the same and distinct, and the values under each key are related. -/
structure SameMembers (R : α → β → Prop) (xs : Entries α) (ys : Entries β) : Prop where
  nodup : (keys xs).Nodup
  nodup' : (keys ys).Nodup
  values : ∀ key, Option.Rel R (get? key xs) (get? key ys)

variable {R : α → β → Prop}

theorem rel_iff {a : Option α} {b : Option β} :
    Option.Rel R a b ↔ (a = none ∧ b = none) ∨ ∃ x y, a = some x ∧ b = some y ∧ R x y := by
  constructor
  · intro h
    cases h with
    | none => exact Or.inl ⟨rfl, rfl⟩
    | some h => exact Or.inr ⟨_, _, rfl, rfl, h⟩
  · rintro (⟨rfl, rfl⟩ | ⟨x, y, rfl, rfl, h⟩)
    · exact .none
    · exact .some h

theorem rel_mono {S : α → β → Prop} (hmono : ∀ x y, R x y → S x y) {a : Option α} {b : Option β}
    (h : Option.Rel R a b) : Option.Rel S a b := by
  cases h with
  | none => exact .none
  | some h => exact .some (hmono _ _ h)

theorem rel_bind {γ δ : Type} {S : γ → δ → Prop} {a : Option α} {b : Option β}
    (h : Option.Rel R a b) {f : α → Option γ} {g : β → Option δ}
    (hfg : ∀ x y, R x y → Option.Rel S (f x) (g y)) : Option.Rel S (a.bind f) (b.bind g) := by
  cases h with
  | none => exact .none
  | some h => exact hfg _ _ h

theorem bind_eq_of_rel {γ : Type} {a : Option α} {b : Option β} (h : Option.Rel R a b)
    {f : α → Option γ} {g : β → Option γ} (hfg : ∀ x y, R x y → f x = g y) :
    a.bind f = b.bind g := by
  cases h with
  | none => rfl
  | some h => exact hfg _ _ h

/-- With related values in place of what is absent. -/
theorem rel_getD {a : Option α} {b : Option β} (h : Option.Rel R a b) {x : α} {y : β}
    (hxy : R x y) : R (a.getD x) (b.getD y) := by
  cases h with
  | none => exact hxy
  | some h => exact h

theorem any_eq_of_rel {a : Option α} {b : Option β} (h : Option.Rel R a b) {p : α → Bool}
    {q : β → Bool} (hpq : ∀ x y, R x y → p x = q y) : a.any p = b.any q := by
  cases h with
  | none => rfl
  | some h => exact hpq _ _ h

namespace SameMembers

variable {xs : Entries α} {ys : Entries β}

protected theorem nil : SameMembers R [] [] := ⟨List.nodup_nil, List.nodup_nil, fun _ => .none⟩

theorem mono (h : SameMembers R xs ys) {S : α → β → Prop} (hmono : ∀ x y, R x y → S x y) :
    SameMembers S xs ys :=
  ⟨h.nodup, h.nodup', fun key => rel_mono hmono (h.values key)⟩

theorem symm (h : SameMembers R xs ys) : SameMembers (fun y x => R x y) ys xs := by
  refine ⟨h.nodup', h.nodup, fun key => ?_⟩
  rcases rel_iff.1 (h.values key) with ⟨hx, hy⟩ | ⟨x, y, hx, hy, hxy⟩
  · rw [hx, hy]
    exact .none
  · rw [hx, hy]
    exact .some hxy

/-! ### Look-up -/

theorem contains_eq (h : SameMembers R xs ys) (key : String) :
    contains key xs = contains key ys := by
  rcases rel_iff.1 (h.values key) with ⟨hx, hy⟩ | ⟨x, y, hx, hy, -⟩ <;>
    simp [contains, hx, hy]

theorem mem_keys_iff (h : SameMembers R xs ys) (key : String) : key ∈ keys xs ↔ key ∈ keys ys := by
  rw [← not_iff_not, ← get?_eq_none_iff, ← get?_eq_none_iff]
  rcases rel_iff.1 (h.values key) with ⟨hx, hy⟩ | ⟨x, y, hx, hy, -⟩ <;> simp [hx, hy]

theorem length_eq (h : SameMembers R xs ys) : xs.length = ys.length := by
  have hperm := (List.perm_ext_iff_of_nodup h.nodup h.nodup').2 h.mem_keys_iff
  simpa [keys] using hperm.length_eq

/-- Every entry on the left has a partner on the right. -/
theorem exists_of_mem (h : SameMembers R xs ys) {entry : String × α} (hentry : entry ∈ xs) :
    ∃ y, get? entry.1 ys = some y ∧ R entry.2 y := by
  have hx := get?_of_mem h.nodup hentry
  rcases rel_iff.1 (h.values entry.1) with ⟨hnone, -⟩ | ⟨x, y, hx', hy, hxy⟩
  · rw [hnone] at hx
    cases hx
  · rw [hx'] at hx
    cases hx
    exact ⟨y, hy, hxy⟩

/-- What holds of all entries on the left holds of all on the right. -/
theorem forall_mem (h : SameMembers R xs ys) {P : String → α → Prop} {Q : String → β → Prop}
    (hpq : ∀ key x y, R x y → P key x → Q key y) (hxs : ∀ entry ∈ xs, P entry.1 entry.2) :
    ∀ entry ∈ ys, Q entry.1 entry.2 := by
  intro entry hentry
  obtain ⟨x, hx, hxy⟩ := h.symm.exists_of_mem hentry
  exact hpq entry.1 x entry.2 hxy (hxs _ (mem_of_get? hx))

/-- What holds of some entry on the left holds of some on the right. -/
theorem exists_mem (h : SameMembers R xs ys) {P : String → α → Prop} {Q : String → β → Prop}
    (hpq : ∀ key x y, R x y → P key x → Q key y) (hxs : ∃ entry ∈ xs, P entry.1 entry.2) :
    ∃ entry ∈ ys, Q entry.1 entry.2 := by
  obtain ⟨entry, hentry, hp⟩ := hxs
  obtain ⟨y, hy, hxy⟩ := h.exists_of_mem hentry
  exact ⟨_, mem_of_get? hy, hpq _ _ _ hxy hp⟩

theorem eq_nil_iff (h : SameMembers R xs ys) : xs = [] ↔ ys = [] := by
  rw [← List.length_eq_zero_iff, h.length_eq, List.length_eq_zero_iff]

/-! ### Operations -/

theorem insert (h : SameMembers R xs ys) (key : String) {x : α} {y : β} (hxy : R x y) :
    SameMembers R (Entries.insert key x xs) (Entries.insert key y ys) := by
  refine ⟨nodup_keys_insert h.nodup key x, nodup_keys_insert h.nodup' key y, fun k => ?_⟩
  rw [get?_insert, get?_insert]
  by_cases hk : key = k
  · rw [if_pos hk, if_pos hk]
    exact .some hxy
  · rw [if_neg hk, if_neg hk]
    exact h.values k

theorem swapErase (h : SameMembers R xs ys) (key : String) :
    SameMembers R (Entries.swapErase key xs) (Entries.swapErase key ys) := by
  refine ⟨nodup_keys_swapErase h.nodup key, nodup_keys_swapErase h.nodup' key, fun k => ?_⟩
  rw [get?_swapErase h.nodup, get?_swapErase h.nodup']
  by_cases hk : key = k
  · rw [if_pos hk, if_pos hk]
    exact .none
  · rw [if_neg hk, if_neg hk]
    exact h.values k

theorem map {γ δ : Type} (h : SameMembers R xs ys) {f : String → α → γ} {g : String → β → δ}
    {S : γ → δ → Prop} (hfg : ∀ key x y, R x y → S (f key x) (g key y)) :
    SameMembers S (xs.map fun entry => (entry.1, f entry.1 entry.2))
      (ys.map fun entry => (entry.1, g entry.1 entry.2)) := by
  refine ⟨?_, ?_, fun key => ?_⟩
  · rw [keys_map fun entry => f entry.1 entry.2]
    exact h.nodup
  · rw [keys_map fun entry => g entry.1 entry.2]
    exact h.nodup'
  · rw [get?_map, get?_map]
    rcases rel_iff.1 (h.values key) with ⟨hx, hy⟩ | ⟨x, y, hx, hy, hxy⟩
    · rw [hx, hy]
      exact .none
    · rw [hx, hy]
      exact .some (hfg key x y hxy)

theorem filter (h : SameMembers R xs ys) {p : α → Bool} {q : β → Bool}
    (hpq : ∀ x y, R x y → p x = q y) :
    SameMembers R (xs.filter fun e => p e.2) (ys.filter fun e => q e.2) := by
  refine ⟨nodup_keys_filter h.nodup _, nodup_keys_filter h.nodup' _, fun key => ?_⟩
  rw [get?_filter h.nodup, get?_filter h.nodup']
  rcases rel_iff.1 (h.values key) with ⟨hx, hy⟩ | ⟨x, y, hx, hy, hxy⟩
  · rw [hx, hy]
    exact .none
  · rw [hx, hy, Option.filter_some, Option.filter_some, hpq x y hxy]
    split
    · exact .some hxy
    · exact .none

/-- One write for each key, where the value written depends on the one that is there. The order of
the writes does not matter, since no two of them are under one key. -/
theorem foldl_insert {γ δ : Type} {S : γ → δ → Prop} {writes : Entries γ} {writes' : Entries δ}
    {f : Option α → γ → α} {g : Option β → δ → β} (h : SameMembers R xs ys)
    (hwrites : SameMembers S writes writes')
    (hfg : ∀ a b v w, Option.Rel R a b → S v w → R (f a v) (g b w)) :
    SameMembers R (writes.foldl (fun acc e => Entries.insert e.1 (f (get? e.1 acc) e.2) acc) xs)
      (writes'.foldl (fun acc e => Entries.insert e.1 (g (get? e.1 acc) e.2) acc) ys) := by
  refine ⟨?_, ?_, fun key => ?_⟩
  · exact nodup_keys_foldl_insert f writes h.nodup
  · exact nodup_keys_foldl_insert g writes' h.nodup'
  · rw [get?_foldl_insert hwrites.nodup, get?_foldl_insert hwrites.nodup']
    rcases rel_iff.1 (hwrites.values key) with ⟨hx, hy⟩ | ⟨v, w, hv, hw, hvw⟩
    · rw [hx, hy]
      exact h.values key
    · rw [hv, hw]
      exact .some (hfg _ _ v w (h.values key) hvw)

end SameMembers

end SchemaForm.Entries
