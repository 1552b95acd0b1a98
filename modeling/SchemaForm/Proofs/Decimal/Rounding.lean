import SchemaForm.Proofs.Decimal.Binary64

/-!
# Integers rounded to the bits of a double

A double keeps 53 significant bits. `roundInt` rounds an integer to as many, as integers only: to
the nearest multiple of what the last of these bits stands for, a tie to the even one. The double of
an integer of at most 64 bits is the integer rounded in this way, so two of them are equal as
doubles just if they are rounded to the same integer.
-/

namespace SchemaForm

namespace Binary64

variable {n : Nat}

/-! ### Quotients -/

theorem roundDiv_mul_mul (num den : Nat) {k : Nat} (hk : 0 < k) :
    roundDiv (num * k) (den * k) = roundDiv num den := by
  have hrest : 2 * (num % den * k) = 2 * (num % den) * k := (Nat.mul_assoc _ _ _).symm
  have hlt : 2 * (num % den) * k < den * k ↔ 2 * (num % den) < den := Nat.mul_lt_mul_right hk
  have heq : 2 * (num % den) * k = den * k ↔ 2 * (num % den) = den :=
    Nat.mul_left_inj (Nat.pos_iff_ne_zero.1 hk)
  rw [roundDiv, roundDiv, Nat.mul_div_mul_right _ _ hk, Nat.mul_mod_mul_right, hrest]
  simp only [hlt, heq]

theorem roundDiv_mul_of_dvd {num den : Nat} (hden : 0 < den) (h : den ∣ num) :
    roundDiv num den * den = num := by
  obtain ⟨q, rfl⟩ := h
  rw [Nat.mul_comm den, roundDiv_mul hden]

theorem div_le_roundDiv (num den : Nat) : num / den ≤ roundDiv num den := by
  rw [roundDiv]
  split <;> omega

theorem roundDiv_le_succ (num den : Nat) : roundDiv num den ≤ num / den + 1 := by
  rw [roundDiv]
  split <;> omega

/-! ### Natural numbers -/

/-- What the last of the 53 leading bits of a number stands for. -/
def lastBit (n : Nat) : Nat := Nat.pow 2 (n.log2 - 52)

/-- A number rounded to 53 bits. -/
def roundNat (n : Nat) : Nat := roundDiv n (lastBit n) * lastBit n

theorem lastBit_pos (n : Nat) : 0 < lastBit n := two_pow_pos _

/-- The numbers that are kept are those whose bits behind the 53 leading ones are zero. -/
theorem roundNat_eq_self_iff : roundNat n = n ↔ lastBit n ∣ n := by
  constructor
  · intro h
    exact ⟨roundDiv n (lastBit n), by rw [Nat.mul_comm]; exact h.symm⟩
  · exact roundDiv_mul_of_dvd (lastBit_pos n)

theorem lastBit_of_lt (h : n < Nat.pow 2 53) : lastBit n = 1 := by
  by_cases hzero : n = 0
  · subst hzero
    rfl
  · have hlog : n.log2 < 53 := (Nat.log2_lt hzero).2 h
    have hshift : n.log2 - 52 = 0 := by omega
    rw [lastBit, hshift]

theorem roundNat_of_lt (h : n < Nat.pow 2 53) : roundNat n = n := by
  rw [roundNat_eq_self_iff, lastBit_of_lt h]
  exact Nat.one_dvd n

theorem log2_of_le (h : Nat.pow 2 53 ≤ n) : n ≠ 0 ∧ 53 ≤ n.log2 := by
  have hne : n ≠ 0 := Nat.pos_iff_ne_zero.1 (Nat.lt_of_lt_of_le (two_pow_pos 53) h)
  exact ⟨hne, (Nat.le_log2 hne).2 h⟩

/-- Of a number with more than 52 bits the 53 leading ones are the quotient by the last of them. -/
theorem le_div_lastBit (h : Nat.pow 2 53 ≤ n) : Nat.pow 2 52 ≤ n / lastBit n := by
  obtain ⟨hne, hlog⟩ := log2_of_le h
  rw [Nat.le_div_iff_mul_le (lastBit_pos n), lastBit, ← two_pow_add]
  have hlow : Nat.pow 2 n.log2 ≤ n := Nat.log2_self_le hne
  rwa [Nat.add_sub_cancel' (by omega)]

theorem div_lastBit_lt (h : Nat.pow 2 53 ≤ n) : n / lastBit n < Nat.pow 2 53 := by
  obtain ⟨hne, hlog⟩ := log2_of_le h
  have hhigh : n < Nat.pow 2 (n.log2 + 1) := Nat.lt_log2_self
  rw [Nat.div_lt_iff_lt_mul (lastBit_pos n), lastBit, ← two_pow_add]
  have hbits : 53 + (n.log2 - 52) = n.log2 + 1 := by omega
  rwa [hbits]

/-- Rounding keeps large numbers large. -/
theorem le_roundNat (h : Nat.pow 2 53 ≤ n) : Nat.pow 2 53 ≤ roundNat n := by
  obtain ⟨-, hlog⟩ := log2_of_le h
  have htwo : Nat.pow 2 1 ≤ lastBit n := Nat.pow_le_pow_right (by decide) (by omega)
  have hquotient : Nat.pow 2 52 ≤ roundDiv n (lastBit n) :=
    Nat.le_trans (le_div_lastBit h) (div_le_roundDiv n (lastBit n))
  exact Nat.mul_le_mul hquotient htwo

/-- A number of at most 53 bits is not confused with another one by rounding. -/
theorem roundNat_inj_of_lt {m : Nat} (hm : m < Nat.pow 2 53) (h : roundNat m = roundNat n) :
    m = n := by
  rw [roundNat_of_lt hm] at h
  by_cases hn : n < Nat.pow 2 53
  · rwa [roundNat_of_lt hn] at h
  · have := le_roundNat (Nat.not_lt.1 hn)
    omega

/-! ### The double nearest to a natural number -/

theorem exists_make?_eq (negative : Bool) {significand exponent : Nat}
    (hsignificand : significand < Nat.pow 2 53) (hnormal : Nat.pow 2 52 ≤ significand)
    (hexponent : exponent ≤ 2045) :
    ∃ x, make? negative significand exponent = some x ∧ x.negative = negative ∧
      x.magnitude = significand * Nat.pow 2 exponent := by
  rw [make?, dif_pos ⟨hsignificand, Or.inl hnormal, hexponent⟩]
  exact ⟨_, rfl, rfl, rfl⟩

/-- Rounding to a double is rounding to 53 bits, whatever unit is counted in. -/
theorem exists_nearest?_eq_roundNat (negative : Bool) {k : Nat} (hlow : 52 ≤ k)
    (hhigh : n.log2 + k ≤ 2096) (hk : k ≤ 2045) :
    ∃ x, nearest? negative (n * Nat.pow 2 k) 1 = some x ∧ x.negative = negative ∧
      x.magnitude = roundNat n * Nat.pow 2 k := by
  by_cases hlt : n < Nat.pow 2 53
  · rw [roundNat_of_lt hlt]
    exact exists_nearest?_eq negative hlt hlow hk
  · have hle := Nat.not_lt.1 hlt
    obtain ⟨hne, hlog⟩ := log2_of_le hle
    have hexponent : (n * Nat.pow 2 k).log2 - 52 = (n.log2 - 52) + k := by
      rw [log2_mul_two_pow hne]
      omega
    have hsignificand : roundDiv (n * Nat.pow 2 k) (Nat.pow 2 (n.log2 - 52 + k)) =
        roundDiv n (lastBit n) := by
      rw [two_pow_add]
      exact roundDiv_mul_mul n (lastBit n) (two_pow_pos k)
    have hnormal := Nat.le_trans (le_div_lastBit hle) (div_le_roundDiv n (lastBit n))
    have hbound : roundDiv n (lastBit n) ≤ Nat.pow 2 53 :=
      Nat.le_trans (roundDiv_le_succ n (lastBit n)) (div_lastBit_lt hle)
    rw [nearest?, Nat.div_one, Nat.one_mul, hexponent, hsignificand, roundNat, Nat.mul_assoc,
      lastBit, ← two_pow_add]
    by_cases hcarry : roundDiv n (lastBit n) = Nat.pow 2 53
    · -- The carry makes a significand of 54 bits, the last of which is zero.
      rw [lastBit] at hcarry
      rw [hcarry, if_pos rfl]
      have htop : Nat.pow 2 52 < Nat.pow 2 53 := by decide
      have hmore : n.log2 - 52 + k + 1 ≤ 2045 := by omega
      obtain ⟨x, hx, hnegative, hmagnitude⟩ := exists_make?_eq negative htop (Nat.le_refl _) hmore
      refine ⟨x, hx, hnegative, ?_⟩
      rw [hmagnitude, ← two_pow_add, ← two_pow_add]
      congr 1
      omega
    · rw [lastBit] at hcarry hbound hnormal
      rw [if_neg hcarry]
      exact exists_make?_eq negative (Nat.lt_of_le_of_ne hbound hcarry) hnormal (by omega)

theorem unit_pos : 0 < unit := by
  obtain ⟨k, -, -, hunit⟩ := exists_unit_eq
  rw [hunit]
  exact two_pow_pos k

/-! ### Integers -/

/-- An integer rounded to 53 bits. -/
def roundInt (n : Int) : Int :=
  if n < 0 then -(roundNat n.natAbs : Int) else roundNat n.natAbs

section

variable {m n : Int}

theorem natAbs_roundInt (n : Int) : (roundInt n).natAbs = roundNat n.natAbs := by
  rw [roundInt]
  split <;> omega

/-- The integers that are kept are those whose bits behind the 53 leading ones are zero. -/
theorem roundInt_eq_self_iff : roundInt n = n ↔ lastBit n.natAbs ∣ n.natAbs := by
  rw [← roundNat_eq_self_iff, roundInt]
  split <;> omega

theorem roundInt_of_lt (h : n.natAbs < Nat.pow 2 53) : roundInt n = n := by
  rw [roundInt_eq_self_iff, ← roundNat_eq_self_iff]
  exact roundNat_of_lt h

/-- An integer of at most 53 bits is not confused with another one by rounding. -/
theorem roundInt_inj_of_lt (hm : m.natAbs < Nat.pow 2 53) (h : roundInt m = roundInt n) :
    m = n := by
  have hnatAbs : m.natAbs = n.natAbs := by
    apply roundNat_inj_of_lt hm
    rw [← natAbs_roundInt, h, natAbs_roundInt]
  have hn : n.natAbs < Nat.pow 2 53 := hnatAbs ▸ hm
  rwa [roundInt_of_lt hm, roundInt_of_lt hn] at h

/-- The double nearest to an integer of at most 64 bits has its sign, and as its value the integer
rounded to 53 bits. -/
theorem nearest?_eq_ofInt (h : n.natAbs < Nat.pow 2 64) :
    nearest? (n < 0) (n.natAbs * unit) 1 = some (ofInt n) ∧
      (ofInt n).negative = decide (n < 0) ∧
      (ofInt n).magnitude = roundNat n.natAbs * unit := by
  obtain ⟨k, hlow, hhigh, hunit⟩ := exists_unit_eq
  have hlog : n.natAbs.log2 < 64 := by
    by_cases hzero : n.natAbs = 0
    · rw [hzero]
      decide
    · exact (Nat.log2_lt hzero).2 h
  obtain ⟨x, hnearest, hnegative, hmagnitude⟩ :=
    exists_nearest?_eq_roundNat (decide (n < 0)) (n := n.natAbs) hlow (by omega) (by omega)
  rw [← hunit] at hnearest hmagnitude
  have hofInt : ofInt n = x := by
    rw [ofInt, hnearest]
    rfl
  rw [hofInt]
  exact ⟨hnearest, hnegative, hmagnitude⟩

/-- The double of an integer is the integer rounded to 53 bits. -/
theorem units_ofInt (h : n.natAbs < Nat.pow 2 64) : (ofInt n).units = roundInt n * unit := by
  obtain ⟨-, hnegative, hmagnitude⟩ := nearest?_eq_ofInt h
  rw [units, hnegative, hmagnitude, roundInt, Int.natCast_mul]
  by_cases hn : n < 0
  · rw [if_pos (decide_eq_true hn), if_pos hn, Int.neg_mul]
  · rw [if_neg (by simpa using hn), if_neg hn]

theorem trunc_ofInt (h : n.natAbs < Nat.pow 2 64) : (ofInt n).trunc = roundInt n := by
  obtain ⟨-, hnegative, hmagnitude⟩ := nearest?_eq_ofInt h
  rw [trunc, hnegative, hmagnitude, Nat.mul_div_cancel _ unit_pos, roundInt]
  simp only [decide_eq_true_eq]

/-- Integers of at most 64 bits are equal as doubles if they are rounded to the same integer. -/
theorem units_ofInt_eq_iff (hm : m.natAbs < Nat.pow 2 64) (hn : n.natAbs < Nat.pow 2 64) :
    (ofInt m).units = (ofInt n).units ↔ roundInt m = roundInt n := by
  have hunit : (unit : Int) ≠ 0 := Int.natCast_ne_zero.2 (Nat.pos_iff_ne_zero.1 unit_pos)
  rw [units_ofInt hm, units_ofInt hn]
  exact Int.mul_eq_mul_right_iff hunit

end

end Binary64

/-- The integers that JSON text keeps have at most 64 bits. -/
theorem Number.natAbs_lt_of_range {n : Int} (hleast : minInt ≤ n) (hgreatest : n ≤ maxInt) :
    n.natAbs < Nat.pow 2 64 := by
  have hhalf : Int.pow 2 63 ≤ Int.pow 2 64 - 1 := by decide
  have hpow : ((Nat.pow 2 64 : Nat) : Int) = Int.pow 2 64 := rfl
  rw [minInt] at hleast
  rw [maxInt] at hgreatest
  omega

end SchemaForm
