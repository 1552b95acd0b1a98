import SchemaForm.Proofs.Decimal.Rounding
import SchemaForm.Proofs.Json.Congruent

/-!
# Comparing integers

Numbers are compared as doubles, so integers are compared with no more than 53 bits. Two values
whose numbers are integers are equal just if they differ in nothing but the order of members and in
integers that are rounded to the same double. An integer of at most 53 bits is equal to itself
alone.
-/

namespace SchemaForm

namespace Number

/-- An integer that JSON text keeps. -/
def Integral : Number → Prop
  | int n => minInt ≤ n ∧ n ≤ maxInt
  | float _ => False

/-- An integer of at most 53 bits. -/
def Short : Number → Prop
  | int n => n.natAbs < Nat.pow 2 53
  | float _ => False

/-- Integers that are the same when they are rounded to 53 bits. -/
def sameRounded : Number → Number → Bool
  | int m, int n => Binary64.roundInt m == Binary64.roundInt n
  | _, _ => false

theorem natAbs_lt_of_integral {n : Int} (h : (int n).Integral) : n.natAbs < Nat.pow 2 64 :=
  natAbs_lt_of_range h.1 h.2

theorem equiv_int_iff {m n : Int} (hm : m.natAbs < Nat.pow 2 64) (hn : n.natAbs < Nat.pow 2 64) :
    (int m).equiv (int n) = true ↔ Binary64.roundInt m = Binary64.roundInt n := by
  rw [equiv_iff]
  exact Binary64.units_ofInt_eq_iff hm hn

theorem sameRounded_eq_equiv {m n : Number} (hm : m.Integral) (hn : n.Integral) :
    m.sameRounded n = m.equiv n := by
  cases m with
  | int m =>
    cases n with
    | int n =>
      rw [Bool.eq_iff_iff, equiv_int_iff (natAbs_lt_of_integral hm) (natAbs_lt_of_integral hn),
        sameRounded, beq_iff_eq]
    | float y => cases hn
  | float x => cases hm

theorem sameRounded_of_identical {m n : Number} (hm : m.Integral) (h : m.identical n = true) :
    m.sameRounded n = true := by
  cases m with
  | int m =>
    cases n with
    | int n =>
      have heq : m = n := by simpa [identical] using h
      rw [heq, sameRounded, beq_self_eq_true]
    | float y => cases h
  | float x => cases hm

theorem identical_of_sameRounded {m n : Number} (hshort : m.Short ∨ n.Short)
    (h : m.sameRounded n = true) : m.identical n = true := by
  cases m with
  | int m =>
    cases n with
    | int n =>
      have hround : Binary64.roundInt m = Binary64.roundInt n := by simpa [sameRounded] using h
      have heq : m = n := by
        rcases hshort with hm | hn
        · exact Binary64.roundInt_inj_of_lt hm hround
        · exact (Binary64.roundInt_inj_of_lt hn hround.symm).symm
      rw [heq, identical, beq_self_eq_true]
    | float y => cases h
  | float x => cases h

end Number

namespace Json

/-- Every number in a value, at any depth, has a property. -/
inductive EveryNumber (P : Number → Prop) : Json → Prop where
  | null : EveryNumber P .null
  | bool (b : Bool) : EveryNumber P (.bool b)
  | num {n : Number} (h : P n) : EveryNumber P (.num n)
  | str (s : String) : EveryNumber P (.str s)
  | arr {items : List Json} (h : ∀ v ∈ items, EveryNumber P v) : EveryNumber P (.arr items)
  | obj {entries : List (String × Json)} (h : ∀ e ∈ entries, EveryNumber P e.2) :
      EveryNumber P (.obj entries)

/-- A value whose numbers are integers that JSON text keeps. -/
structure IntegersOnly (v : Json) : Prop where
  keysUnique : v.KeysUnique
  integral : v.EveryNumber Number.Integral

/-- The values differ in nothing but the order of members, and in integers that are the same when
they are rounded to 53 bits. -/
abbrev RoundedAlike : Json → Json → Prop := Congruent Number.sameRounded

variable {v w : Json}

/-- A comparison of numbers can be replaced by one that agrees with it on the numbers at hand. -/
theorem Congruent.of_everyNumber {same same' : Number → Number → Bool} {P Q : Number → Prop}
    (hsame : ∀ m n, P m → Q n → same m n = true → same' m n = true) (hv : v.EveryNumber P)
    (hw : w.EveryNumber Q) (h : Congruent same v w) : Congruent same' v w := by
  induction h with
  | null => exact .null
  | bool b => exact .bool b
  | num h =>
    cases hv with
    | num hm =>
      cases hw with
      | num hn => exact .num (hsame _ _ hm hn h)
  | str s => exact .str s
  | arr length _ ih =>
    cases hv with
    | arr hxs =>
      cases hw with
      | arr hys =>
        exact .arr length fun i hx hy =>
          ih i hx hy (hxs _ (List.getElem_mem hx)) (hys _ (List.getElem_mem hy))
  | obj nodup nodup' absent _ ih =>
    cases hv with
    | obj hxs =>
      cases hw with
      | obj hys =>
        exact .obj nodup nodup' absent fun key x y hx hy =>
          ih key x y hx hy (hxs _ (Entries.mem_of_get? hx)) (hys _ (Entries.mem_of_get? hy))

/-- Values of integers are equal if 53 bits do not tell the integers apart. -/
theorem equiv_iff_roundedAlike (hv : v.IntegersOnly) (hw : w.IntegersOnly) :
    v.equiv w = true ↔ RoundedAlike v w := by
  constructor
  · intro h
    have hcongruent := Congruent.of_agree hv.keysUnique w hw.keysUnique h
    refine hcongruent.of_everyNumber ?_ hv.integral hw.integral
    exact fun m n hm hn hequiv => (Number.sameRounded_eq_equiv hm hn).trans hequiv
  · intro h
    have hcongruent : Congruent Number.equiv v w := by
      refine h.of_everyNumber ?_ hv.integral hw.integral
      exact fun m n hm hn hround => (Number.sameRounded_eq_equiv hm hn).symm.trans hround
    exact hcongruent.agree_eq_true

/-- Where the integers of one side have at most 53 bits, equality is that of integers. -/
theorem roundedAlike_iff_reordered (hv : v.IntegersOnly) (hw : w.IntegersOnly)
    (hshort : v.EveryNumber Number.Short ∨ w.EveryNumber Number.Short) :
    RoundedAlike v w ↔ Reordered v w := by
  constructor
  · intro h
    rcases hshort with hshort | hshort
    · refine h.of_everyNumber ?_ hshort hw.integral
      exact fun m n hm _ => Number.identical_of_sameRounded (.inl hm)
    · refine h.of_everyNumber ?_ hv.integral hshort
      exact fun m n _ hn => Number.identical_of_sameRounded (.inr hn)
  · intro h
    refine h.of_everyNumber ?_ hv.integral hw.integral
    exact fun m n hm _ => Number.sameRounded_of_identical hm

end Json
end SchemaForm
