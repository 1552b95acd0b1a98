import SchemaForm.Proofs.Json.Equality
import SchemaForm.Proofs.SameMembers

/-!
# Values that are equal up to the order of members

`Congruent same` relates two values that differ in nothing but the order of members, at every depth,
and in numbers that `same` does not tell apart. Between values with distinct keys it is the
comparison `agree same`; as a relation with one case for each kind of value it can be used by
induction on both values at once. `Reordered` is the relation in which numbers are of one kind and
equal.
-/

namespace SchemaForm

namespace Json

open Entries (SameMembers rel_iff rel_bind)

/-- The values differ in nothing but the order of members, and in numbers that are the `same`. -/
inductive Congruent (same : Number → Number → Bool) : Json → Json → Prop where
  | null : Congruent same .null .null
  | bool (b : Bool) : Congruent same (.bool b) (.bool b)
  | num {m n : Number} (h : same m n = true) : Congruent same (.num m) (.num n)
  | str (s : String) : Congruent same (.str s) (.str s)
  | arr {xs ys : List Json} (length : xs.length = ys.length)
      (elements : ∀ i (hx : i < xs.length) (hy : i < ys.length), Congruent same xs[i] ys[i]) :
      Congruent same (.arr xs) (.arr ys)
  | obj {xs ys : List (String × Json)} (nodup : (Entries.keys xs).Nodup)
      (nodup' : (Entries.keys ys).Nodup)
      (absent : ∀ key, Entries.get? key xs = none ↔ Entries.get? key ys = none)
      (values : ∀ key x y, Entries.get? key xs = some x → Entries.get? key ys = some y →
        Congruent same x y) :
      Congruent same (.obj xs) (.obj ys)

/-- Equal up to the order of members. -/
abbrev Reordered : Json → Json → Prop := Congruent Number.identical

namespace Congruent

variable {same : Number → Number → Bool} {v w : Json}

/-! ### Arrays and objects -/

/-- Under each key both sides have nothing, or two related values. -/
theorem sameMembers_of {R : Json → Json → Prop} {xs ys : Fields}
    (nodup : (Entries.keys xs).Nodup) (nodup' : (Entries.keys ys).Nodup)
    (absent : ∀ key, Entries.get? key xs = none ↔ Entries.get? key ys = none)
    (values : ∀ key x y, Entries.get? key xs = some x → Entries.get? key ys = some y → R x y) :
    SameMembers R xs ys := by
  refine ⟨nodup, nodup', fun key => ?_⟩
  cases hx : Entries.get? key xs with
  | none =>
    rw [(absent key).1 hx]
    exact .none
  | some x =>
    cases hy : Entries.get? key ys with
    | none =>
      rw [(absent key).2 hy] at hx
      cases hx
    | some y => exact .some (values key x y hx hy)

@[simp] theorem arr_iff {xs ys : List Json} :
    Congruent same (.arr xs) (.arr ys) ↔ List.Forall₂ (Congruent same) xs ys := by
  rw [List.forall₂_iff_get]
  constructor
  · intro h
    cases h with
    | arr length elements => exact ⟨length, elements⟩
  · rintro ⟨length, elements⟩
    exact .arr length elements

@[simp] theorem obj_iff {xs ys : Fields} :
    Congruent same (.obj xs) (.obj ys) ↔ SameMembers (Congruent same) xs ys := by
  constructor
  · intro h
    cases h with
    | obj nodup nodup' absent values => exact sameMembers_of nodup nodup' absent values
  · intro h
    refine .obj h.nodup h.nodup' ?_ ?_
    · intro key
      rcases rel_iff.1 (h.values key) with ⟨hx, hy⟩ | ⟨x, y, hx, hy, -⟩ <;> simp [hx, hy]
    · intro key x y hx hy
      have hxy := h.values key
      rw [hx, hy] at hxy
      cases hxy with
      | some hxy => exact hxy

/-- Induction on both values at once. -/
@[elab_as_elim]
theorem induct {motive : ∀ v w, Congruent same v w → Prop} (null : motive _ _ .null)
    (bool : ∀ b, motive _ _ (.bool b))
    (num : ∀ m n (h : same m n = true), motive _ _ (.num h))
    (str : ∀ s, motive _ _ (.str s))
    (arr : ∀ xs ys (h : List.Forall₂ (fun x y => ∃ h : Congruent same x y, motive x y h) xs ys),
      motive _ _ (arr_iff.2 (h.imp fun _ _ h => h.1)))
    (obj : ∀ xs ys (h : SameMembers (fun x y => ∃ h : Congruent same x y, motive x y h) xs ys),
      motive _ _ (obj_iff.2 (h.mono fun _ _ h => h.1)))
    {v w : Json} (h : Congruent same v w) : motive v w h := by
  induction h with
  | null => exact null
  | bool b => exact bool b
  | num h => exact num _ _ h
  | str s => exact str s
  | arr length elements ih =>
    exact arr _ _ (List.forall₂_iff_get.2 ⟨length, fun i hx hy => ⟨elements i hx hy, ih i hx hy⟩⟩)
  | obj nodup nodup' absent values ih =>
    exact obj _ _ (sameMembers_of nodup nodup' absent fun key x y hx hy =>
      ⟨values key x y hx hy, ih key x y hx hy⟩)

/-- The kinds of values, with the elements or the members of both sides related as lists. -/
@[elab_as_elim]
theorem kinds {motive : ∀ v w, Congruent same v w → Prop} (null : motive _ _ .null)
    (bool : ∀ b, motive _ _ (.bool b))
    (num : ∀ m n (h : same m n = true), motive _ _ (.num h))
    (str : ∀ s, motive _ _ (.str s))
    (arr : ∀ xs ys (h : List.Forall₂ (Congruent same) xs ys), motive _ _ (arr_iff.2 h))
    (obj : ∀ xs ys (h : SameMembers (Congruent same) xs ys), motive _ _ (obj_iff.2 h))
    {v w : Json} (h : Congruent same v w) : motive v w h :=
  induct null bool num str (fun xs ys h => arr xs ys (h.imp fun _ _ h => h.1))
    (fun xs ys h => obj xs ys (h.mono fun _ _ h => h.1)) h

theorem mono {same' : Number → Number → Bool} (hmono : ∀ m n, same m n = true → same' m n = true)
    (h : Congruent same v w) : Congruent same' v w := by
  induction h using induct with
  | null => exact .null
  | bool b => exact .bool b
  | num m n h => exact .num (hmono m n h)
  | str s => exact .str s
  | arr xs ys h => exact arr_iff.2 (h.imp fun _ _ ⟨_, ih⟩ => ih)
  | obj xs ys h => exact obj_iff.2 (h.mono fun _ _ ⟨_, ih⟩ => ih)

/-! ### Distinct keys -/

theorem keysUnique (h : Congruent same v w) : v.KeysUnique := by
  induction h with
  | null => exact .null
  | bool b => exact .bool b
  | num => exact .num _
  | str s => exact .str s
  | arr length elements ih =>
    refine .arr fun x hx => ?_
    obtain ⟨i, hi, rfl⟩ := List.getElem_of_mem hx
    exact ih i hi (length ▸ hi)
  | obj nodup nodup' absent values ih =>
    refine .obj nodup fun entry hentry => ?_
    have hx := Entries.get?_of_mem nodup hentry
    obtain ⟨y, hy⟩ := Option.ne_none_iff_exists'.1 fun hy =>
      Option.some_ne_none _ (hx.symm.trans ((absent entry.1).2 hy))
    exact ih entry.1 entry.2 y hx hy

theorem flip (h : Congruent same v w) : Congruent (fun m n => same n m) w v := by
  induction h with
  | null => exact .null
  | bool b => exact .bool b
  | num h => exact .num h
  | str s => exact .str s
  | arr length _ ih => exact .arr length.symm fun i hx hy => ih i hy hx
  | obj nodup nodup' absent _ ih =>
    exact .obj nodup' nodup (fun key => (absent key).symm) fun key x y hx hy => ih key y x hy hx

theorem symm (hsame : ∀ m n, same m n = true → same n m = true) (h : Congruent same v w) :
    Congruent same w v :=
  h.flip.mono fun m n => hsame n m

theorem keysUnique' (h : Congruent same v w) : w.KeysUnique := h.flip.keysUnique

theorem membersUnique {xs ys : Fields} (h : SameMembers (Congruent same) xs ys) :
    MembersUnique xs :=
  keysUnique_obj_iff.1 (obj_iff.2 h).keysUnique

theorem membersUnique' {xs ys : Fields} (h : SameMembers (Congruent same) xs ys) :
    MembersUnique ys :=
  keysUnique_obj_iff.1 (obj_iff.2 h).keysUnique'

/-! ### The comparison -/

theorem agree_eq_true (h : Congruent same v w) : agree same v w = true := by
  induction h using induct with
  | null => rw [agree]
  | bool b => simp [agree]
  | num m n h => rwa [agree]
  | str s => simp [agree]
  | arr xs ys h =>
    rw [agree, agreeItems_iff]
    refine h.imp fun x y hxy => ?_
    obtain ⟨-, ih⟩ := hxy
    exact ih
  | obj xs ys h =>
    rw [agree, Bool.and_eq_true, beq_iff_eq, agreeEntries_iff]
    refine ⟨h.length_eq, fun entry hentry => ?_⟩
    obtain ⟨y, hy, -, ih⟩ := h.exists_of_mem hentry
    exact ⟨y, hy, ih⟩

/-- Between values with distinct keys the relation is the comparison. -/
theorem of_agree (hv : v.KeysUnique) :
    ∀ w, w.KeysUnique → agree same v w = true → Congruent same v w := by
  induction hv with
  | null =>
    intro w _ h
    cases w with
    | null => exact .null
    | _ => cases h
  | bool b =>
    intro w _ h
    cases w with
    | bool b' =>
      rw [agree, beq_iff_eq] at h
      exact h ▸ .bool b
    | _ => cases h
  | num m =>
    intro w _ h
    cases w with
    | num n => exact .num (by rwa [agree] at h)
    | _ => cases h
  | str s =>
    intro w _ h
    cases w with
    | str s' =>
      rw [agree, beq_iff_eq] at h
      exact h ▸ .str s
    | _ => cases h
  | @arr xs _ ih =>
    intro w hw h
    cases w with
    | arr ys =>
      rw [agree, agreeItems_iff, List.forall₂_iff_get] at h
      have hys := keysUnique_arr_iff.1 hw
      refine .arr h.1 fun i hx hy => ?_
      exact ih _ (List.getElem_mem hx) _ (hys _ (List.getElem_mem hy)) (h.2 i hx hy)
    | _ => cases h
  | @obj xs hnodup _ ih =>
    intro w hw h
    cases w with
    | obj ys =>
      rw [agree, Bool.and_eq_true, beq_iff_eq, agreeEntries_iff] at h
      obtain ⟨hlength, hmembers⟩ := h
      have hys := keysUnique_obj_iff.1 hw
      have hsubset : ∀ key ∈ Entries.keys xs, key ∈ Entries.keys ys := by
        intro key hkey
        obtain ⟨entry, hentry, rfl⟩ := List.mem_map.1 hkey
        obtain ⟨y, hy, -⟩ := hmembers entry hentry
        exact List.mem_map.2 ⟨_, Entries.mem_of_get? hy, rfl⟩
      have hsuperset := mem_keys_of_length_eq hnodup hlength hsubset
      refine .obj hnodup hys.nodup ?_ ?_
      · intro key
        rw [Entries.get?_eq_none_iff, Entries.get?_eq_none_iff, not_iff_not]
        exact ⟨hsubset key, hsuperset key⟩
      · intro key x y hx hy
        have hentry := Entries.mem_of_get? hx
        obtain ⟨y', hy', hagree⟩ := hmembers _ hentry
        obtain rfl : y' = y := Option.some.inj (hy'.symm.trans hy)
        exact ih _ hentry y' (hys.get? hy) hagree
    | _ => cases h

theorem refl (hsame : ∀ n, same n n = true) (hv : v.KeysUnique) : Congruent same v v := by
  induction hv with
  | null => exact .null
  | bool b => exact .bool b
  | num n => exact .num (hsame n)
  | str s => exact .str s
  | arr _ ih => exact .arr rfl fun i hx _ => ih _ (List.getElem_mem hx)
  | obj hnodup _ ih =>
    refine .obj hnodup hnodup (fun key => Iff.rfl) fun key x y hx hy => ?_
    obtain rfl : x = y := Option.some.inj (hx.symm.trans hy)
    exact ih _ (Entries.mem_of_get? hx)

theorem trans {u : Json} (hsame : Equivalence fun m n => same m n = true)
    (h : Congruent same u v) (h' : Congruent same v w) : Congruent same u w := by
  induction h generalizing w with
  | null => exact h'
  | bool b => exact h'
  | num h =>
    cases h' with
    | num h' => exact .num (hsame.trans h h')
  | str s => exact h'
  | arr length _ ih =>
    cases h' with
    | arr length' elements' =>
      refine .arr (length.trans length') fun i hx hz => ?_
      have hy := length ▸ hx
      exact ih i hx hy (elements' i hy hz)
  | obj nodup _ absent _ ih =>
    cases h' with
    | obj _ nodup'' absent' values' =>
      refine .obj nodup nodup'' (fun key => (absent key).trans (absent' key)) ?_
      intro key x z hx hz
      obtain ⟨y, hy⟩ := Option.ne_none_iff_exists'.1 fun hy =>
        Option.some_ne_none _ (hx.symm.trans ((absent key).2 hy))
      exact ih key x y hx hy (values' key y z hy hz)

theorem agree_of_agree (hsame : Equivalence fun m n => same m n = true) {v' w' : Json}
    (hv : Congruent same v v') (hw : Congruent same w w') (h : agree same v w = true) :
    agree same v' w' = true := by
  have hvw : Congruent same v w := of_agree hv.keysUnique w hw.keysUnique h
  have hv' : Congruent same v' v := hv.symm fun _ _ => hsame.symm
  exact (hv'.trans hsame (hvw.trans hsame hw)).agree_eq_true

/-- A comparison by an equivalence does not see the difference. -/
theorem agree_eq (hsame : Equivalence fun m n => same m n = true) {v' w' : Json}
    (hv : Congruent same v v') (hw : Congruent same w w') :
    agree same v w = agree same v' w' := by
  have hv' := hv.symm fun _ _ => hsame.symm
  have hw' := hw.symm fun _ _ => hsame.symm
  rw [Bool.eq_iff_iff]
  exact ⟨agree_of_agree hsame hv hw, agree_of_agree hsame hv' hw'⟩

/-! ### Parts -/

theorem rel_fields? (h : Congruent same v w) :
    Option.Rel (SameMembers (Congruent same)) v.fields? w.fields? := by
  cases h using kinds with
  | obj xs ys h => exact .some h
  | _ => exact .none

theorem rel_items? (h : Congruent same v w) :
    Option.Rel (List.Forall₂ (Congruent same)) v.items? w.items? := by
  cases h using kinds with
  | arr xs ys h => exact .some h
  | _ => exact .none

theorem rel_get? (h : Congruent same v w) (key : String) :
    Option.Rel (Congruent same) (v.get? key) (w.get? key) := by
  cases h using kinds with
  | obj xs ys h => exact h.values key
  | _ => exact .none

theorem rel_getFields? (h : Congruent same v w) (key : String) :
    Option.Rel (SameMembers (Congruent same)) (v.getFields? key) (w.getFields? key) :=
  rel_bind (h.rel_get? key) fun _ _ => rel_fields?

theorem rel_getItems? (h : Congruent same v w) (key : String) :
    Option.Rel (List.Forall₂ (Congruent same)) (v.getItems? key) (w.getItems? key) :=
  rel_bind (h.rel_get? key) fun _ _ => rel_items?

theorem str?_eq (h : Congruent same v w) : v.str? = w.str? := by
  cases h <;> rfl

theorem isObj_eq (h : Congruent same v w) : v.isObj = w.isObj := by
  cases h <;> rfl

theorem isArr_eq (h : Congruent same v w) : v.isArr = w.isArr := by
  cases h <;> rfl

end Congruent

/-! ### Equal up to the order of members -/

section

variable {v v' w w' : Json}

theorem reordered_iff : Reordered v w ↔ v.KeysUnique ∧ w.KeysUnique ∧ identical v w = true := by
  constructor
  · intro h
    exact ⟨h.keysUnique, h.keysUnique', h.agree_eq_true⟩
  · rintro ⟨hv, hw, h⟩
    exact Congruent.of_agree hv w hw h

theorem Reordered.refl (h : v.KeysUnique) : Reordered v v :=
  Congruent.refl (fun _ => Number.equivalence_identical.refl _) h

theorem Reordered.symm (h : Reordered v w) : Reordered w v :=
  Congruent.symm (fun _ _ => Number.equivalence_identical.symm) h

theorem Reordered.equiv (h : Reordered v w) : Congruent Number.equiv v w :=
  h.mono fun _ _ => Number.equiv_of_identical

theorem identical_self (h : v.KeysUnique) : v.identical v = true :=
  (Reordered.refl h).agree_eq_true

theorem identical_eq (hv : Reordered v v') (hw : Reordered w w') :
    identical v w = identical v' w' :=
  Congruent.agree_eq Number.equivalence_identical hv hw

theorem equiv_eq (hv : Congruent Number.equiv v v') (hw : Congruent Number.equiv w w') :
    Json.equiv v w = Json.equiv v' w' :=
  Congruent.agree_eq Number.equivalence_equiv hv hw

theorem equiv_self (h : v.KeysUnique) : v.equiv v = true :=
  (Reordered.refl h).equiv.agree_eq_true

theorem equiv_symm (hv : v.KeysUnique) (hw : w.KeysUnique) (h : v.equiv w = true) :
    w.equiv v = true :=
  ((Congruent.of_agree hv w hw h).symm fun _ _ => Number.equiv_symm).agree_eq_true

theorem equiv_trans {u : Json} (hu : u.KeysUnique) (hv : v.KeysUnique) (hw : w.KeysUnique)
    (h : u.equiv v = true) (h' : v.equiv w = true) : u.equiv w = true :=
  ((Congruent.of_agree hu v hv h).trans Number.equivalence_equiv
    (Congruent.of_agree hv w hw h')).agree_eq_true

theorem any_eq {R : Json → Json → Prop} {p q : Json → Bool} (hpq : ∀ x y, R x y → p x = q y)
    {xs ys : List Json} (h : List.Forall₂ R xs ys) : xs.any p = ys.any q := by
  induction h with
  | nil => rfl
  | cons hxy _ ih => rw [List.any_cons, List.any_cons, hpq _ _ hxy, ih]

theorem all_eq {R : Json → Json → Prop} {p q : Json → Bool} (hpq : ∀ x y, R x y → p x = q y)
    {xs ys : List Json} (h : List.Forall₂ R xs ys) : xs.all p = ys.all q := by
  induction h with
  | nil => rfl
  | cons hxy _ ih => rw [List.all_cons, List.all_cons, hpq _ _ hxy, ih]

theorem exists_of_mem_forall₂ {R : Json → Json → Prop} {xs ys : List Json}
    (h : List.Forall₂ R xs ys) {x : Json} (hx : x ∈ xs) : ∃ y ∈ ys, R x y := by
  obtain ⟨i, hi, rfl⟩ := List.getElem_of_mem hx
  have hi' : i < ys.length := h.length_eq ▸ hi
  exact ⟨ys[i], List.getElem_mem hi', h.get hi hi'⟩

/-- An array differs from itself with one element replaced just if the element differs. -/
theorem identical_arr_set {items : List Json}
    (hkeys : ∀ v ∈ items, v.KeysUnique) {i : Nat} (hi : i < items.length) (item : Json) :
    identical (.arr items) (.arr (items.set i item)) = identical items[i] item := by
  rw [Bool.eq_iff_iff]
  conv_lhs => rw [identical, agree, agreeItems_iff, List.forall₂_iff_get]
  constructor
  · rintro ⟨-, helements⟩
    have hitem := helements i hi (by simpa using hi)
    simpa [identical] using hitem
  · intro hitem
    refine ⟨by simp, fun k hk hk' => ?_⟩
    by_cases hik : i = k
    · subst hik
      simpa [identical] using hitem
    · simpa [hik, identical] using identical_self (hkeys _ (List.getElem_mem hk))

theorem memberOf_eq (hv : Reordered v v') {xs ys : List Json}
    (h : List.Forall₂ Reordered xs ys) : v.memberOf xs = v'.memberOf ys :=
  any_eq (fun _ _ hw => identical_eq hv hw) h

/-- Numbers that are equal are equal as doubles. -/
theorem Reordered.rel_double? (h : Reordered v w) :
    Option.Rel (fun x y => x.units = y.units) v.double? w.double? := by
  cases h with
  | num h => exact .some (Number.toBinary64_units_eq_of_identical h)
  | _ => exact .none

/-- Numbers that are equal are one count, or none is a count. -/
theorem Reordered.nat?_eq (h : Reordered v w) : v.nat? = w.nat? := by
  cases h with
  | @num m n h =>
    cases m with
    | int m =>
      cases n with
      | int n => rw [show m = n by simpa [Number.identical] using h]
      | float y => cases h
    | float x =>
      cases n with
      | int n => cases h
      | float y => rfl
  | _ => rfl

end

end Json
end SchemaForm
