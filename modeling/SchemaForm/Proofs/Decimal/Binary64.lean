import SchemaForm.Json.Number

/-!
# Integers as doubles

A natural number below `2^53` fits into a significand, so rounding leaves it as it is, and the order
of such numbers as doubles is their order as numbers. A greater one is rounded, but no bit of the
double then stands for less than one, so every integer is a whole number as a double too.
-/

namespace SchemaForm.Binary64

variable {n : Nat}

theorem le_iff {x y : Binary64} : le x y = true ↔ x.units ≤ y.units := by
  rw [le, decide_eq_true_iff]

theorem natAbs_units (x : Binary64) : x.units.natAbs = x.magnitude := by
  unfold units
  split <;> simp

theorem isWhole_eq_of_units_eq {x y : Binary64} (h : x.units = y.units) :
    x.isWhole = y.isWhole := by
  rw [isWhole, isWhole, ← natAbs_units, ← natAbs_units, h]

theorem two_pow_pos (k : Nat) : 0 < Nat.pow 2 k := Nat.two_pow_pos k

theorem two_pow_add (k l : Nat) : Nat.pow 2 (k + l) = Nat.pow 2 k * Nat.pow 2 l :=
  Nat.pow_add 2 k l

theorem roundDiv_mul {den : Nat} (hden : 0 < den) (q : Nat) : roundDiv (q * den) den = q := by
  have hquotient : q * den / den = q := Nat.mul_div_cancel q hden
  have hrest : q * den % den = 0 := Nat.mul_mod_left q den
  rw [roundDiv, hquotient, hrest]
  exact if_pos (Or.inl hden)

theorem log2_mul_two_pow (hn : n ≠ 0) (k : Nat) : (n * Nat.pow 2 k).log2 = n.log2 + k := by
  have hpos := two_pow_pos k
  have hlow : Nat.pow 2 n.log2 ≤ n := Nat.log2_self_le hn
  have hhigh : n < Nat.pow 2 (n.log2 + 1) := Nat.lt_log2_self
  rw [Nat.log2_eq_iff (Nat.mul_ne_zero hn (Nat.pos_iff_ne_zero.1 hpos))]
  constructor
  · show Nat.pow 2 (n.log2 + k) ≤ _
    rw [two_pow_add]
    exact Nat.mul_le_mul_right (Nat.pow 2 k) hlow
  · show _ < Nat.pow 2 (n.log2 + k + 1)
    rw [Nat.add_right_comm, two_pow_add]
    exact Nat.mul_lt_mul_of_pos_right hhigh hpos

/-- A number whose significant bits fit into a significand is the double that it rounds to. -/
theorem exists_nearest?_eq (negative : Bool) (hlt : n < Nat.pow 2 53) {k : Nat} (hlow : 52 ≤ k)
    (hhigh : k ≤ 2045) :
    ∃ x, nearest? negative (n * Nat.pow 2 k) 1 = some x ∧ x.negative = negative ∧
      x.magnitude = n * Nat.pow 2 k := by
  rw [nearest?, Nat.div_one, Nat.one_mul]
  by_cases hzero : n = 0
  · subst hzero
    rw [Nat.zero_mul]
    refine ⟨zero negative, ?_, rfl, ?_⟩
    · rfl
    · exact Nat.zero_mul _
  · have hlog : n.log2 ≤ 52 := Nat.le_of_lt_succ ((Nat.log2_lt hzero).2 hlt)
    -- The bits of `n` are moved up to the top of the significand.
    have hmove : n * Nat.pow 2 k =
        n * Nat.pow 2 (52 - n.log2) * Nat.pow 2 (n.log2 + k - 52) := by
      rw [Nat.mul_assoc, ← two_pow_add]
      congr 2
      omega
    have htop : (n * Nat.pow 2 (52 - n.log2)).log2 = 52 := by
      rw [log2_mul_two_pow hzero]
      omega
    have hne : n * Nat.pow 2 (52 - n.log2) ≠ 0 :=
      Nat.mul_ne_zero hzero (Nat.pos_iff_ne_zero.1 (two_pow_pos _))
    obtain ⟨hsignificand, hbound⟩ := (Nat.log2_eq_iff hne).1 htop
    have hround : roundDiv (n * Nat.pow 2 k) (Nat.pow 2 (n.log2 + k - 52)) =
        n * Nat.pow 2 (52 - n.log2) := by
      rw [hmove]
      exact roundDiv_mul (two_pow_pos _) _
    rw [log2_mul_two_pow hzero, hround, if_neg (Nat.ne_of_lt hbound), make?,
      dif_pos ⟨hbound, Or.inl hsignificand, by omega⟩]
    exact ⟨_, rfl, rfl, hmove.symm⟩

/-- One is a power of two in units, with room for every bit of a significand. -/
theorem exists_unit_eq : ∃ k, 52 ≤ k ∧ k ≤ 1074 ∧ unit = Nat.pow 2 k := by
  refine ⟨1074, by decide, by decide, ?_⟩
  -- `rw` and `rfl` would set out to evaluate the power
  delta unit
  exact Eq.refl _

/-- A natural number below `2^53` is a double. -/
theorem units_ofInt_natCast (hlt : n < Nat.pow 2 53) :
    (ofInt n).units = ((n * unit : Nat) : Int) := by
  obtain ⟨k, hlow, hhigh, hunit⟩ := exists_unit_eq
  obtain ⟨x, hnearest, hnegative, hmagnitude⟩ := exists_nearest?_eq false hlt hlow (by omega)
  have hsign : decide ((n : Int) < 0) = false := decide_eq_false (by omega)
  have hofInt : ofInt n = x := by
    rw [ofInt, hsign, Int.natAbs_natCast, hunit, hnearest]
    rfl
  rw [hofInt, units, hnegative, hmagnitude, hunit]
  rfl

/-- A double none of whose bits stands for less than one is whole. -/
theorem isWhole_of_le_exponent {x : Binary64} {k : Nat} (hunit : unit = Nat.pow 2 k)
    (h : k ≤ x.exponent) : x.isWhole = true := by
  obtain ⟨rest, hrest⟩ := Nat.exists_eq_add_of_le h
  have hmagnitude : x.magnitude = unit * (x.significand * Nat.pow 2 rest) := by
    rw [magnitude, hrest, two_pow_add, hunit, Nat.mul_left_comm]
  rw [isWhole, hmagnitude, Nat.mul_mod_right]
  rfl

theorem exponent_of_make? {negative : Bool} {significand exponent : Nat} {x : Binary64}
    (h : make? negative significand exponent = some x) : x.exponent = exponent := by
  unfold make? at h
  split at h
  · cases h
    rfl
  · cases h

/-- Rounding drops the bits that do not fit into a significand, and perhaps one more. -/
theorem le_exponent_of_nearest? {negative : Bool} {num den : Nat} {x : Binary64}
    (h : nearest? negative num den = some x) : (num / den).log2 - 52 ≤ x.exponent := by
  rw [nearest?] at h
  split at h
  · rw [exponent_of_make? h]
    exact Nat.le_succ _
  · exact Nat.le_of_eq (exponent_of_make? h).symm

/-- An integer is a whole number as a double, be it rounded or not. -/
theorem isWhole_ofInt (n : Int) : (ofInt n).isWhole = true := by
  obtain ⟨k, hlow, hhigh, hunit⟩ := exists_unit_eq
  rw [ofInt]
  cases hnearest : nearest? (n < 0) (n.natAbs * unit) 1 with
  | none => exact isWhole_of_le_exponent hunit (show k ≤ 2045 by omega)
  | some x =>
    rw [Option.getD_some]
    by_cases hlt : n.natAbs < Nat.pow 2 53
    · obtain ⟨y, hy, -, hmagnitude⟩ := exists_nearest?_eq (decide (n < 0)) hlt hlow (by omega)
      obtain rfl : x = y := Option.some.inj (hnearest.symm.trans (hunit ▸ hy))
      rw [isWhole, hmagnitude, ← hunit, Nat.mul_mod_left]
      rfl
    · have hpos : n.natAbs ≠ 0 := by
        rintro hzero
        rw [hzero] at hlt
        exact hlt (two_pow_pos 53)
      have hbits : 53 ≤ n.natAbs.log2 := (Nat.le_log2 hpos).2 (Nat.not_lt.1 hlt)
      have hexponent := le_exponent_of_nearest? hnearest
      rw [Nat.div_one, hunit, log2_mul_two_pow hpos] at hexponent
      exact isWhole_of_le_exponent hunit (by omega)

/-- Natural numbers below `2^53` are ordered as doubles as they are as numbers. -/
theorem le_ofInt_natCast_iff {m : Nat} (hm : m < Nat.pow 2 53) (hn : n < Nat.pow 2 53) :
    le (ofInt m) (ofInt n) = true ↔ m ≤ n := by
  obtain ⟨k, -, -, hunit⟩ := exists_unit_eq
  rw [le_iff, units_ofInt_natCast hm, units_ofInt_natCast hn, Int.ofNat_le, hunit]
  exact Nat.mul_le_mul_right_iff (two_pow_pos k)

end SchemaForm.Binary64
