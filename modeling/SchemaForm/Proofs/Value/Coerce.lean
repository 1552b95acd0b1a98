import SchemaForm.Proofs.Decimal.Rounding
import SchemaForm.Value.Coerce

/-!
# What coercion makes of a value

A value that is turned into a type takes one of the forms of that type, in which it stays when it is
turned again; every other value is kept. A double becomes an integer only where the integer part has
64 bits: the comparison that guards this is one of doubles, and its limit, the greatest integer of
64 bits, is rounded up to `2^63`, which no double below it reaches.
-/

namespace SchemaForm

namespace Binary64

variable {x : Binary64}

/-- The integer is a signed one of 64 bits. -/
structure InInt64 (n : Int) : Prop where
  least : minInt64 ≤ n
  greatest : n ≤ maxInt64

theorem toInt64_eq_trunc (h : InInt64 x.trunc) : x.toInt64 = x.trunc := by
  obtain ⟨hleast, hgreatest⟩ := h
  rw [toInt64, Int.min_eq_left hgreatest, Int.max_eq_right hleast]

theorem natAbs_trunc (x : Binary64) : x.trunc.natAbs = x.magnitude / unit := by
  rw [trunc]
  split
  · rw [Int.natAbs_neg, Int.natAbs_natCast]
  · rw [Int.natAbs_natCast]

theorem inInt64_of_natAbs_lt {n : Int} (h : n.natAbs < Nat.pow 2 63) : InInt64 n := by
  have hpow : ((Nat.pow 2 63 : Nat) : Int) = Int.pow 2 63 := rfl
  constructor
  · rw [minInt64]
    omega
  · rw [maxInt64]
    omega

end Binary64

namespace Value

open Binary64 (InInt64 inInt64_of_natAbs_lt)

/-! ### The guard -/

/-- The greatest integer of 64 bits is no double, and is rounded up. -/
theorem units_intLimit : intLimit.units = ((Nat.pow 2 63 * Binary64.unit : Nat) : Int) := by
  have hround : Binary64.roundInt Binary64.maxInt64 = (Nat.pow 2 63 : Nat) := by
    decide +kernel
  rw [intLimit, Binary64.units_ofInt (by decide +kernel), hround, Int.natCast_mul]

/-- The guard admits the doubles whose integer part is smaller than `2^63`. -/
theorem abs_lt_intLimit_iff {x : Binary64} :
    x.abs.lt intLimit = true ↔ x.trunc.natAbs < Nat.pow 2 63 := by
  have habs : x.abs.units = (x.magnitude : Int) := rfl
  rw [Binary64.lt, decide_eq_true_iff, habs, units_intLimit, Binary64.natAbs_trunc,
    Nat.div_lt_iff_lt_mul Binary64.unit_pos, Int.ofNat_lt]

section

variable {toInt toInt' : Binary64 → Int}

/-- Only doubles whose integer part has 64 bits become integers. -/
theorem smallInt?_congr (h : ∀ x, InInt64 x.trunc → toInt x = toInt' x) :
    smallInt? toInt = smallInt? toInt' := by
  funext x
  rw [smallInt?, smallInt?]
  by_cases hsmall : x.abs.lt intLimit = true
  · have hrange := inInt64_of_natAbs_lt (abs_lt_intLimit_iff.1 hsmall)
    rw [if_pos hsmall, if_pos hsmall, h x hrange]
  · rw [if_neg hsmall, if_neg hsmall]

theorem coerceBy_congr (h : ∀ x, InInt64 x.trunc → toInt x = toInt' x) :
    coerceBy toInt = coerceBy toInt' := by
  have hsmall := smallInt?_congr h
  have hnumber : readNumber? toInt = readNumber? toInt' := by
    funext s
    rw [readNumber?, readNumber?, hsmall]
  have htruncate : truncate? toInt = truncate? toInt' := by
    funext n
    cases n with
    | int n => rfl
    | float x => rw [truncate?, truncate?, hsmall]
  have hcoerce : coerceBy? toInt = coerceBy? toInt' := by
    funext type v
    cases type <;> cases v <;> simp only [coerceBy?, hnumber, htruncate]
  funext type v
  cases v <;> simp only [coerceBy, hcoerce]

end

/-! ### The forms of a type -/

/-- The forms of the values that are turned into a type. -/
inductive Formed : JsonType → Json → Prop
  | string (s : String) : Formed .string (.str s)
  | number (n : Number) : Formed .number (.num n)
  | integer (n : Int) : Formed .integer (.int n)
  | boolean (b : Bool) : Formed .boolean (.bool b)
  | null : Formed .null .null

variable {toInt : Binary64 → Int} {type : JsonType} {v w : Json}

theorem Formed.admits (h : Formed type w) : type.admits w = true := by
  cases h <;> rfl

/-- A value in a form of the type stays as it is. -/
theorem Formed.coerceBy_eq (h : Formed type w) : coerceBy toInt type w = w := by
  cases h <;> rfl

theorem exists_int_of_smallInt? {x : Binary64} (h : smallInt? toInt x = some w) :
    ∃ n, w = .int n := by
  rw [smallInt?] at h
  split at h
  · cases h
    exact ⟨_, rfl⟩
  · cases h

theorem exists_num_of_readNumber? {s : String} (h : readNumber? toInt s = some w) :
    ∃ n, w = .num n := by
  rw [readNumber?] at h
  split at h
  · cases h
    exact ⟨.int 0, rfl⟩
  · obtain ⟨x, -, hw⟩ := Option.bind_eq_some_iff.1 h
    cases hw
    cases hwhole : if x.isWhole then smallInt? toInt x else none with
    | none => exact ⟨.float x, rfl⟩
    | some w =>
      split at hwhole
      · obtain ⟨n, rfl⟩ := exists_int_of_smallInt? hwhole
        exact ⟨.int n, rfl⟩
      · cases hwhole

theorem exists_int_of_readInteger? {s : String} (h : readInteger? s = some w) :
    ∃ n, w = .int n := by
  rw [readInteger?] at h
  obtain ⟨negative, rest⟩ := splitSign (Text.trimLeft s.toList)
  dsimp only at h
  split at h
  · cases h
  · cases h
    exact ⟨_, rfl⟩

theorem exists_int_of_truncate? {n : Number} (h : truncate? toInt n = some w) :
    ∃ n, w = .int n := by
  cases n with
  | int n =>
    cases h
    exact ⟨n, rfl⟩
  | float x => exact exists_int_of_smallInt? h

theorem formed_of_coerceBy? (h : coerceBy? toInt type v = some w) : Formed type w := by
  unfold coerceBy? at h
  split at h
  · cases h
    exact .string _
  · cases h
    exact .string _
  · obtain ⟨n, rfl⟩ := exists_num_of_readNumber? h
    exact .number n
  · obtain ⟨n, rfl⟩ := exists_int_of_readInteger? h
    exact .integer n
  · obtain ⟨n, rfl⟩ := exists_int_of_truncate? h
    exact .integer n
  · obtain ⟨b, -, rfl⟩ := Option.map_eq_some_iff.1 h
    exact .boolean b
  · cases h
    exact .null
  · cases h

/-- Coercion keeps a value or gives it a form of the type. -/
theorem coerceBy_eq_or_formed (toInt : Binary64 → Int) (type : JsonType) (v : Json) :
    coerceBy toInt type v = v ∨ Formed type (coerceBy toInt type v) := by
  by_cases hnull : v = .null
  · subst hnull
    exact .inl rfl
  · have hcoerce : coerceBy toInt type v = (coerceBy? toInt type v).getD v := by
      cases v with
      | null => exact absurd rfl hnull
      | _ => rfl
    rw [hcoerce]
    cases hw : coerceBy? toInt type v with
    | none => exact .inl rfl
    | some w => exact .inr (formed_of_coerceBy? hw)

/-- Coercion gives a value of the type or the value itself, changes nothing when it is repeated, and
hangs on how doubles become integers only for those whose integer part is an integer of 64 bits. -/
theorem coerce_admitted_or_same (type : JsonType) (v : Json) :
    (coerce type v = v ∨ type.admits (coerce type v) = true) ∧
      coerce type (coerce type v) = coerce type v ∧
      ∀ toInt : Binary64 → Int, (∀ x, InInt64 x.trunc → toInt x = x.trunc) →
        coerceBy toInt type v = coerce type v := by
  refine ⟨?_, ?_, ?_⟩
  · rcases coerceBy_eq_or_formed Binary64.toInt64 type v with hsame | hformed
    · exact .inl hsame
    · exact .inr hformed.admits
  · rcases coerceBy_eq_or_formed Binary64.toInt64 type v with hsame | hformed
    · rw [coerce, coerce, hsame, hsame]
    · exact hformed.coerceBy_eq
  · intro toInt htoInt
    have hexact : ∀ x, InInt64 x.trunc → toInt x = x.toInt64 := fun x hx =>
      (htoInt x hx).trans (Binary64.toInt64_eq_trunc hx).symm
    rw [coerce, coerceBy_congr hexact]

end Value
end SchemaForm
