import Mathlib.Data.List.Forall2
import Mathlib.Data.List.Perm.Subperm
import SchemaForm.Proofs.Json.KeysUnique

/-!
# Comparing JSON values

Arrays are compared element by element. Objects are compared member by member, from left to right
only; since no key comes twice and both sides have as many members, that is the same from right to
left.
-/

namespace SchemaForm

namespace Number

theorem toBinary64_units_eq_of_identical {m n : Number} (h : m.identical n = true) :
    m.toBinary64.units = n.toBinary64.units := by
  cases m with
  | int m =>
    cases n with
    | int n =>
      have heq : m = n := by simpa [identical] using h
      rw [heq]
    | float y => cases h
  | float x =>
    cases n with
    | int n => cases h
    | float y => simpa [identical, Binary64.eq, toBinary64] using h

/-- Numbers are equal if their doubles are. -/
theorem equiv_iff {m n : Number} :
    m.equiv n = true ↔ m.toBinary64.units = n.toBinary64.units := by
  rw [equiv, Bool.or_eq_true]
  constructor
  · rintro (h | h)
    · exact toBinary64_units_eq_of_identical h
    · simpa [Binary64.eq] using h
  · intro h
    right
    simpa [Binary64.eq] using h

theorem equiv_symm {m n : Number} (h : m.equiv n = true) : n.equiv m = true :=
  equiv_iff.2 (equiv_iff.1 h).symm

theorem equiv_trans {l m n : Number} (h : l.equiv m = true) (h' : m.equiv n = true) :
    l.equiv n = true :=
  equiv_iff.2 ((equiv_iff.1 h).trans (equiv_iff.1 h'))

theorem equiv_of_identical {m n : Number} (h : m.identical n = true) : m.equiv n = true :=
  equiv_iff.2 (toBinary64_units_eq_of_identical h)

theorem equivalence_equiv : Equivalence fun m n : Number => m.equiv n = true :=
  ⟨fun _ => equiv_iff.2 rfl, equiv_symm, equiv_trans⟩

theorem equivalence_identical : Equivalence fun m n : Number => m.identical n = true := by
  refine ⟨?_, ?_, ?_⟩
  · intro n
    cases n <;> simp [identical, Binary64.eq]
  · intro m n h
    cases m <;> cases n <;> simp_all [identical, Binary64.eq]
  · intro l m n h h'
    cases l <;> cases m <;> cases n <;> simp_all [identical, Binary64.eq]

end Number

namespace Json

variable {same : Number → Number → Bool}

/-! ### Elements and members -/

theorem agreeItems_iff {xs ys : List Json} :
    agreeItems same xs ys = true ↔ List.Forall₂ (fun x y => agree same x y = true) xs ys := by
  induction xs generalizing ys with
  | nil => cases ys <;> simp [agreeItems]
  | cons x xs ih => cases ys <;> simp [agreeItems, ih]

theorem agreeEntries_iff {xs : List (String × Json)} {ys : Fields} :
    agreeEntries same xs ys = true ↔
      ∀ entry ∈ xs, ∃ y, Entries.get? entry.1 ys = some y ∧ agree same entry.2 y = true := by
  induction xs with
  | nil => simp [agreeEntries]
  | cons entry rest ih =>
    obtain ⟨key, x⟩ := entry
    rw [agreeEntries, Bool.and_eq_true, ih, List.forall_mem_cons]
    refine and_congr_left fun _ => ?_
    cases Entries.get? key ys with
    | none => simp
    | some y => simp

/-- Two objects with as many members have the same keys if one has all keys of the other. -/
theorem mem_keys_of_length_eq {xs ys : Fields} (hnodup : (Entries.keys xs).Nodup)
    (hlength : xs.length = ys.length) (hsubset : ∀ key ∈ Entries.keys xs, key ∈ Entries.keys ys) :
    ∀ key ∈ Entries.keys ys, key ∈ Entries.keys xs := by
  have hsubperm := List.subperm_of_subset hnodup hsubset
  have hle : (Entries.keys ys).length ≤ (Entries.keys xs).length := by
    simp [Entries.keys, hlength]
  intro key hkey
  exact (hsubperm.perm_of_length_le hle).mem_iff.2 hkey

/-! ### Texts -/

/-- A text is identical to itself alone. -/
theorem identical_str_iff {s : String} {v : Json} : identical (.str s) v = true ↔ v = .str s := by
  cases v with
  | str s' =>
    rw [identical, agree, beq_iff_eq]
    constructor
    · rintro rfl
      rfl
    · intro h
      cases h
      rfl
  | _ =>
    constructor
    · intro h
      cases h
    · intro h
      cases h

theorem memberOf_str_iff {s : String} {items : List Json} :
    (Json.str s).memberOf items = true ↔ .str s ∈ items := by
  simp only [memberOf, List.any_eq_true, identical_str_iff, exists_eq_right]

end Json
end SchemaForm
