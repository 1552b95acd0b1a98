import Mathlib.Algebra.Order.Field.Power
import Mathlib.Data.Rat.Cast.Order
import Mathlib.Tactic.FieldSimp
import Mathlib.Tactic.Linarith
import Mathlib.Tactic.Ring
import SchemaForm.Decimal.Shortest
import SchemaForm.Proofs.Decimal.Rounding

/-!
# What the shortest decimal tells

The search for the shortest decimal ends inside the rounding interval: every grid that it accepts
has a point there, and the grid of 18 digits, on which it ends at the latest, is so fine that the
point below the value lies there too. Two intervals have no point in common: where they touch, one
of the two significands is odd, and its interval is without its ends. Main statement: the shortest
decimal of a double stands for a number from which its absolute value can be told.
-/

namespace SchemaForm

/-- The number that a decimal stands for. -/
def Decimal.value (d : Decimal) : ℚ := d.coefficient * (10 : ℚ) ^ d.exponent

/-- Stripped of zeros a decimal stands for the same number. -/
theorem Decimal.value_stripZeros (fuel : Nat) (d : Decimal) :
    (d.stripZeros fuel).value = d.value := by
  induction fuel generalizing d with
  | zero => rfl
  | succ fuel ih =>
    rw [Decimal.stripZeros]
    split
    · next h =>
      obtain ⟨q, hq⟩ := Nat.dvd_of_mod_eq_zero h.2
      rw [ih, Decimal.value, Decimal.value, hq, Nat.mul_div_cancel_left q (by decide),
        zpow_add₀ (by norm_num), zpow_one]
      push_cast
      ring
    · rfl

namespace Binary64

variable {x y : Binary64}

/-! ### Intervals -/

/-- The gap to the next double above, in units. -/
def gap (x : Binary64) : Nat := Nat.pow 2 x.exponent

theorem gap_pos (x : Binary64) : 0 < x.gap := two_pow_pos _

theorem magnitude_eq (x : Binary64) : x.magnitude = x.significand * x.gap := rfl

/-- How far the interval reaches below the value, on the scale of `Rounding`. -/
def slack (x : Binary64) : Nat :=
  if x.significand = Nat.pow 2 52 ∧ 0 < x.exponent then x.gap else 2 * x.gap

theorem rounding_eq (x : Binary64) :
    x.rounding = ⟨4 * x.magnitude, 4 * x.magnitude - x.slack, 4 * x.magnitude + 2 * x.gap,
      x.significand % 2 == 0⟩ := rfl

theorem gap_le_slack (x : Binary64) : x.gap ≤ x.slack := by
  unfold slack
  split <;> omega

/-- The significand is less than `2^53`, so the value is less than as many gaps. -/
theorem magnitude_add_gap_le (x : Binary64) : x.magnitude + x.gap ≤ 2 ^ 53 * x.gap := by
  have hlt : x.significand + 1 ≤ 2 ^ 53 := x.significand_lt
  calc x.magnitude + x.gap = (x.significand + 1) * x.gap := (Nat.succ_mul _ _).symm
    _ ≤ 2 ^ 53 * x.gap := Nat.mul_le_mul_right x.gap hlt

/-- With a greater exponent the gap is at least twice as wide, and the significand is not short. -/
theorem exists_gap_eq (h : x.exponent < y.exponent) :
    ∃ extra, y.gap = 2 * x.gap + 2 * extra ∧
      ∃ more, y.significand = 2 ^ 52 + more ∧ y.magnitude = 2 ^ 52 * y.gap + more * y.gap := by
  obtain ⟨k, hk⟩ := Nat.exists_eq_add_of_lt h
  have hgap : y.gap = x.gap * (2 * Nat.pow 2 k) := by
    rw [gap, hk, Nat.add_assoc, two_pow_add, Nat.add_comm k 1, two_pow_add]
    rfl
  have hwide : Nat.pow 2 k = 1 + (Nat.pow 2 k - 1) := by
    have := two_pow_pos k
    omega
  have hlong : 2 ^ 52 ≤ y.significand := by
    rcases y.canonical with hle | hzero
    · exact hle
    · omega
  obtain ⟨more, hmore⟩ := Nat.exists_eq_add_of_le hlong
  refine ⟨x.gap * (Nat.pow 2 k - 1), ?_, more, hmore, ?_⟩
  · rw [hgap, hwide]
    simp only [Nat.add_sub_cancel_left]
    ring
  · rw [magnitude_eq, hmore, Nat.add_mul]

theorem magnitude_lt_of_exponent_lt (h : x.exponent < y.exponent) :
    x.magnitude < y.magnitude := by
  obtain ⟨extra, hgap, more, -, hmagnitude⟩ := exists_gap_eq h
  have hbound := x.magnitude_add_gap_le
  have hpos := x.gap_pos
  omega

/-- Doubles with one absolute value differ in the sign at most. -/
theorem fields_eq_of_magnitude_eq (h : x.magnitude = y.magnitude) :
    x.significand = y.significand ∧ x.exponent = y.exponent := by
  have hexponent : x.exponent = y.exponent := by
    rcases Nat.lt_trichotomy x.exponent y.exponent with hlt | heq | hgt
    · exact absurd h (Nat.ne_of_lt (magnitude_lt_of_exponent_lt hlt))
    · exact heq
    · exact absurd h.symm (Nat.ne_of_lt (magnitude_lt_of_exponent_lt hgt))
  refine ⟨?_, hexponent⟩
  have hgap : x.gap = y.gap := by rw [gap, hexponent, gap]
  rw [magnitude_eq, magnitude_eq, hgap] at h
  exact Nat.eq_of_mul_eq_mul_right y.gap_pos h

/-- The interval of a double ends below the one of another double, or where it begins; then one of
the significands is odd. -/
structure EndsBefore (x y : Binary64) : Prop where
  le : 4 * x.magnitude + 2 * x.gap + y.slack ≤ 4 * y.magnitude
  odd : 4 * x.magnitude + 2 * x.gap + y.slack = 4 * y.magnitude →
    x.significand % 2 = 1 ∨ y.significand % 2 = 1

theorem endsBefore_of_exponent_lt (h : x.exponent < y.exponent) : EndsBefore x y := by
  have hpos := x.gap_pos
  have hbound := x.magnitude_add_gap_le
  obtain ⟨extra, hgap, more, hmore, hmagnitude⟩ := exists_gap_eq h
  cases more with
  | zero =>
    -- below a power of two the gap is the narrower one
    have hslack : y.slack = y.gap := if_pos ⟨hmore, by omega⟩
    refine ⟨by omega, fun htouch => ?_⟩
    have hfull : x.magnitude + x.gap = 2 ^ 53 * x.gap := by omega
    have hlast : x.significand + 1 = 2 ^ 53 := by
      apply Nat.eq_of_mul_eq_mul_right hpos
      rw [Nat.succ_mul]
      exact hfull
    omega
  | succ more =>
    have hslack : y.slack = 2 * y.gap := if_neg fun hpower => by
      have : y.significand = 2 ^ 52 := hpower.1
      omega
    have hmore : (more + 1) * y.gap = more * y.gap + y.gap := Nat.succ_mul _ _
    exact ⟨by omega, by omega⟩

theorem endsBefore_of_exponent_eq (heq : x.exponent = y.exponent)
    (h : x.magnitude < y.magnitude) : EndsBefore x y := by
  have hpos := x.gap_pos
  have hgap : x.gap = y.gap := by rw [gap, heq, gap]
  have hlt : x.significand < y.significand := by
    rw [magnitude_eq, magnitude_eq, hgap] at h
    exact Nat.lt_of_mul_lt_mul_right h
  obtain ⟨more, hmore⟩ := Nat.exists_eq_add_of_lt hlt
  have hmagnitude : y.magnitude = x.magnitude + more * y.gap + y.gap := by
    rw [magnitude_eq, hmore, magnitude_eq, hgap]
    ring
  have hslack : y.slack ≤ 2 * y.gap := by
    unfold slack
    split <;> omega
  refine ⟨by omega, fun htouch => ?_⟩
  -- intervals that touch are those of neighbours
  have hnext : more = 0 := by
    rcases Nat.eq_zero_or_pos more with hzero | hmorePos
    · exact hzero
    · have := Nat.le_mul_of_pos_left y.gap hmorePos
      omega
  omega

theorem endsBefore_of_lt (h : x.magnitude < y.magnitude) : EndsBefore x y := by
  rcases Nat.lt_trichotomy x.exponent y.exponent with hlt | heq | hgt
  · exact endsBefore_of_exponent_lt hlt
  · exact endsBefore_of_exponent_eq heq h
  · exact absurd h (Nat.not_lt_of_gt (magnitude_lt_of_exponent_lt hgt))

/-! ### Points in an interval -/

/-- A point on the scale of an interval belongs to it. -/
def Rounding.Holds (r : Rounding) (point : ℚ) : Prop :=
  if r.closed then r.low ≤ point ∧ point ≤ r.high else r.low < point ∧ point < r.high

theorem Rounding.Holds.bounds {r : Rounding} {point : ℚ} (h : r.Holds point) :
    r.low ≤ point ∧ point ≤ r.high := by
  unfold Rounding.Holds at h
  split at h
  · exact h
  · exact ⟨h.1.le, h.2.le⟩

theorem Rounding.holds_of_lt {r : Rounding} {point : ℚ} (hlow : r.low < point)
    (hhigh : point < r.high) : r.Holds point := by
  unfold Rounding.Holds
  split
  · exact ⟨hlow.le, hhigh.le⟩
  · exact ⟨hlow, hhigh⟩

theorem ten_zpow_mul (e : Int) :
    (10 : ℚ) ^ e * (Nat.pow 10 (-e).toNat : ℕ) = (Nat.pow 10 e.toNat : ℕ) := by
  have hsplit : e + ((-e).toNat : Int) = e.toNat := by omega
  rw [Nat.pow_eq, Nat.pow_eq, Nat.cast_pow, Nat.cast_pow, Nat.cast_ofNat, ← zpow_natCast,
    ← zpow_natCast, ← zpow_add₀ (by norm_num), hsplit]

theorem ten_pow_pos (k : Nat) : 0 < Nat.pow 10 k := Nat.pow_pos (by decide)

/-- A decimal as a point on the scale of the intervals. -/
def point (d : Decimal) : ℚ := d.value * scale

theorem point_mul (c : Nat) (e : Int) :
    point ⟨c, e⟩ * (Nat.pow 10 (-e).toNat : ℕ) = (c * Nat.pow 10 e.toNat * scale : ℕ) := by
  push_cast
  rw [← ten_zpow_mul e, point, Decimal.value]
  ring

/-- The test for a point of a grid decides whether the point is in the interval. -/
theorem Rounding.contains_iff (r : Rounding) (c : Nat) (e : Int) :
    r.contains c (Nat.pow 10 e.toNat) (Nat.pow 10 (-e).toNat) = true ↔ r.Holds (point ⟨c, e⟩) := by
  have hden : (0 : ℚ) < (Nat.pow 10 (-e).toNat : ℕ) := Nat.cast_pos.2 (ten_pow_pos _)
  have hle : ∀ low : Nat, (low : ℚ) ≤ point ⟨c, e⟩ ↔
      low * Nat.pow 10 (-e).toNat ≤ c * Nat.pow 10 e.toNat * scale := by
    intro low
    rw [← mul_le_mul_iff_left₀ hden, point_mul, ← Nat.cast_mul, Nat.cast_le]
  have hge : ∀ high : Nat, point ⟨c, e⟩ ≤ high ↔
      c * Nat.pow 10 e.toNat * scale ≤ high * Nat.pow 10 (-e).toNat := by
    intro high
    rw [← mul_le_mul_iff_left₀ hden, point_mul, ← Nat.cast_mul, Nat.cast_le]
  unfold Rounding.contains Rounding.Holds
  split
  · simp only [Bool.and_eq_true, decide_eq_true_eq, hle, hge]
  · simp only [Bool.and_eq_true, decide_eq_true_eq, ← not_le, hle, hge]

/-- What is found on a grid is in the interval. -/
theorem Rounding.holds_of_onGrid? {r : Rounding} {e : Int} {c : Nat} (h : r.onGrid? e = some c) :
    r.Holds (point ⟨c, e⟩) := by
  rw [← r.contains_iff]
  unfold Rounding.onGrid? at h
  dsimp only at h
  split at h
  · next hfloor hceil =>
    split at h
    · cases h
      exact hfloor
    · cases h
      exact hceil
  · next hfloor _ =>
    cases h
    exact hfloor
  · next _ hceil =>
    cases h
    exact hceil
  · cases h

/-! ### The search -/

/-- The leading digit of a whole number of steps stands for no more than the number. -/
theorem ten_pow_length_le {steps : Nat} (h : 1 ≤ steps) :
    ∃ k, (Decimal.digits steps).length = k + 1 ∧ 10 ^ k ≤ steps := by
  obtain ⟨k, hk⟩ : ∃ k, (Decimal.digits steps).length = k + 1 :=
    Nat.exists_eq_succ_of_ne_zero (List.length_pos_iff.2 Nat.toDigits_ne_nil).ne'
  refine ⟨k, hk, ?_⟩
  cases k with
  | zero => exact h
  | succ k =>
    have hlong : ¬ (Decimal.digits steps).length ≤ k + 1 := by omega
    rw [Decimal.digits, Nat.length_toDigits_le_iff (by decide) (Nat.succ_pos k)] at hlong
    exact Nat.le_of_not_lt hlong

/-- The leading digit is told from the number of steps on a grid, if the grid is so fine that the
least double is one step and more. -/
theorem ten_zpow_leading_le (h : 0 < x.magnitude) {shift : Nat} (hfine : unit ≤ Nat.pow 10 shift) :
    (10 : ℚ) ^ (((Decimal.digits (x.magnitude * Nat.pow 10 shift / unit)).length : Int) - 1 - shift)
      * unit ≤ x.magnitude := by
  have hsteps : unit ≤ x.magnitude * Nat.pow 10 shift :=
    Nat.le_trans hfine (Nat.le_mul_of_pos_left _ h)
  obtain ⟨k, hlength, hlead⟩ := ten_pow_length_le ((Nat.one_le_div_iff unit_pos).2 hsteps)
  have hbound : 10 ^ k * unit ≤ x.magnitude * 10 ^ shift :=
    (Nat.mul_le_mul_right unit hlead).trans (Nat.div_mul_le_self _ _)
  have hbound' : (10 : ℚ) ^ k * unit ≤ x.magnitude * 10 ^ shift := by exact_mod_cast hbound
  have hexponent : ((k + 1 : ℕ) : Int) - 1 - shift = k - shift := by omega
  rw [hlength, hexponent, zpow_sub₀ (by norm_num), zpow_natCast, zpow_natCast,
    div_mul_eq_mul_div, div_le_iff₀ (by positivity)]
  exact hbound'

theorem cast_scale : (scale : ℚ) = 4 * unit := by
  rw [scale, Nat.cast_mul, Nat.cast_ofNat]

theorem cast_value (x : Binary64) : (x.rounding.value : ℚ) = 4 * x.magnitude := by
  rw [rounding_eq, Nat.cast_mul, Nat.cast_ofNat]

theorem cast_high (x : Binary64) : (x.rounding.high : ℚ) = 4 * x.magnitude + 2 * x.gap := by
  rw [rounding_eq]
  push_cast
  rfl

/-- The interval of a positive double lies above zero. -/
theorem slack_lt (h : 0 < x.magnitude) : x.slack < 4 * x.magnitude := by
  have hgap : x.gap ≤ x.magnitude := by
    rw [magnitude_eq] at h ⊢
    exact Nat.le_mul_of_pos_left _ (Nat.pos_of_mul_pos_right h)
  have hpos := x.gap_pos
  unfold slack
  split <;> omega

theorem cast_low (h : 0 < x.magnitude) : (x.rounding.low : ℚ) = 4 * x.magnitude - x.slack := by
  rw [rounding_eq, Nat.cast_sub (slack_lt h).le]
  push_cast
  rfl

/-- The leading digit stands for no more than the value. -/
theorem ten_zpow_leadingExponent_le (h : 0 < x.magnitude) :
    (10 : ℚ) ^ x.leadingExponent * scale ≤ x.rounding.value := by
  have hfine : unit ≤ Nat.pow 10 330 := by decide +kernel
  have hleading : (10 : ℚ) ^ x.leadingExponent * unit ≤ x.magnitude := by
    rw [leadingExponent]
    generalize 330 = shift at hfine ⊢
    exact ten_zpow_leading_le h hfine
  rw [cast_scale, cast_value]
  linarith

/-- On every grid a value lies between the point below it and the next one. -/
theorem floor_le_and_lt (value : Nat) (e : Int) {c : Nat}
    (hc : c = value * Nat.pow 10 (-e).toNat / (Nat.pow 10 e.toNat * scale)) :
    point ⟨c, e⟩ ≤ value ∧ (value : ℚ) < point ⟨c, e⟩ + 10 ^ e * scale := by
  let num := Nat.pow 10 e.toNat * scale
  let den := Nat.pow 10 (-e).toNat
  have hden : (0 : ℚ) < den := Nat.cast_pos.2 (ten_pow_pos _)
  have hnum : 0 < num := Nat.mul_pos (ten_pow_pos _) (Nat.mul_pos (by decide) unit_pos)
  have hpoint : point ⟨c, e⟩ * den = (value * den / num * num : ℕ) := by
    rw [hc, ← Nat.mul_assoc]
    exact point_mul _ e
  have hstep : (10 : ℚ) ^ e * scale * den = num := by
    have hpow := ten_zpow_mul e
    calc (10 : ℚ) ^ e * scale * den = (10 : ℚ) ^ e * den * scale := by ring
      _ = num := by rw [hpow, ← Nat.cast_mul]
  constructor
  · rw [← mul_le_mul_iff_left₀ hden, hpoint, ← Nat.cast_mul, Nat.cast_le]
    exact Nat.div_mul_le_self _ _
  · rw [← mul_lt_mul_iff_left₀ hden, add_mul, hpoint, hstep, ← Nat.cast_mul, ← Nat.cast_add,
      Nat.cast_lt]
    exact Nat.lt_div_mul_add hnum

/-- The grid of 18 digits is so fine that the point below the value is in the interval. -/
theorem holds_floor (h : 0 < x.magnitude) {leading : Int}
    (hleading : (10 : ℚ) ^ leading * scale ≤ x.rounding.value) {e : Int}
    (he : e = leading + 1 - 18) :
    x.rounding.Holds (point ⟨x.rounding.value * Nat.pow 10 (-e).toNat /
      (Nat.pow 10 e.toNat * scale), e⟩) := by
  obtain ⟨habove, hbelow⟩ := floor_le_and_lt x.rounding.value e rfl
  have hfine : (10 : ℚ) ^ e * scale * 10 ^ 17 ≤ x.rounding.value := by
    have hpow : (10 : ℚ) ^ e * 10 ^ 17 = 10 ^ leading := by
      rw [he, ← zpow_natCast, ← zpow_add₀ (by norm_num)]
      congr 1
      push_cast
      ring
    rw [mul_right_comm, hpow]
    exact hleading
  -- The value is less than `4 * 2^53` gaps, so a step is less than half a gap below the value.
  have hvalue := cast_value x
  have hgaps : (x.magnitude : ℚ) ≤ 2 ^ 53 * x.gap := by
    exact_mod_cast (Nat.le_add_right _ _).trans x.magnitude_add_gap_le
  have hgap : (0 : ℚ) < x.gap := Nat.cast_pos.2 x.gap_pos
  have hslack : (x.gap : ℚ) ≤ x.slack := Nat.cast_le.2 x.gap_le_slack
  apply Rounding.holds_of_lt
  · rw [cast_low h, ← hvalue]
    linarith
  · rw [cast_high, ← hvalue]
    linarith

theorem holds_search (h : 0 < x.magnitude) {leading : Int}
    (hleading : (10 : ℚ) ^ leading * scale ≤ x.rounding.value) {fuel digits : Nat}
    (hgrids : digits + fuel = 18) :
    x.rounding.Holds (point (x.rounding.search leading fuel digits)) := by
  induction fuel generalizing digits with
  | zero =>
    obtain rfl : digits = 18 := hgrids
    exact holds_floor h hleading rfl
  | succ fuel ih =>
    rw [Rounding.search]
    cases hgrid : x.rounding.onGrid? (leading + 1 - digits) with
    | some c => exact Rounding.holds_of_onGrid? hgrid
    | none => exact ih (by omega)

theorem holds_shortest (h : 0 < x.magnitude) : x.rounding.Holds (point x.shortest) := by
  have hvalue : point x.shortest = point (x.rounding.search x.leadingExponent 17 1) := by
    rw [shortest, if_neg (Nat.ne_of_gt h), point, Decimal.value_stripZeros, point]
  rw [hvalue]
  exact holds_search h (ten_zpow_leadingExponent_le h) rfl

/-! ### Different doubles -/

/-- No point rounds to two absolute values. -/
theorem not_holds_of_lt (hpos : 0 < x.magnitude) (h : x.magnitude < y.magnitude) {point : ℚ}
    (hx : x.rounding.Holds point) : ¬ y.rounding.Holds point := by
  intro hy
  obtain ⟨hends, htouch⟩ := endsBefore_of_lt h
  have hends' : (4 : ℚ) * x.magnitude + 2 * x.gap + y.slack ≤ 4 * y.magnitude := by
    exact_mod_cast hends
  have hhigh := hx.bounds.2
  have hlow := hy.bounds.1
  rw [cast_high] at hhigh
  rw [cast_low (hpos.trans h)] at hlow
  -- only a point that is an end of both intervals is left
  have hmeet : 4 * x.magnitude + 2 * x.gap + y.slack = 4 * y.magnitude := by
    have hle : (4 : ℚ) * y.magnitude ≤ 4 * x.magnitude + 2 * x.gap + y.slack := by linarith
    exact Nat.le_antisymm hends (by exact_mod_cast hle)
  have hmeet' : (4 : ℚ) * x.magnitude + 2 * x.gap + y.slack = 4 * y.magnitude := by
    exact_mod_cast hmeet
  rcases htouch hmeet with hodd | hodd
  · have hopen : x.rounding.closed = false := by simp [rounding_eq, hodd]
    rw [Rounding.Holds, hopen, if_neg Bool.false_ne_true, cast_high] at hx
    linarith [hx.2]
  · have hopen : y.rounding.closed = false := by simp [rounding_eq, hodd]
    rw [Rounding.Holds, hopen, if_neg Bool.false_ne_true, cast_low (hpos.trans h)] at hy
    linarith [hy.1]

theorem point_shortest_pos (h : 0 < x.magnitude) : 0 < point x.shortest := by
  have hlow := (holds_shortest h).bounds.1
  have hslack : (x.slack : ℚ) < 4 * x.magnitude := by exact_mod_cast slack_lt h
  rw [cast_low h] at hlow
  linarith

/-- The shortest decimal tells the absolute value of a double. -/
theorem magnitude_eq_of_value_shortest (h : x.shortest.value = y.shortest.value) :
    x.magnitude = y.magnitude := by
  have hpoint : point x.shortest = point y.shortest := congrArg (· * (scale : ℚ)) h
  have hzero : ∀ z : Binary64, z.magnitude = 0 → point z.shortest = 0 := by
    intro z hz
    rw [shortest, if_pos hz, point, Decimal.value, Nat.cast_zero, zero_mul, zero_mul]
  rcases Nat.eq_zero_or_pos x.magnitude with hx | hx
  · rcases Nat.eq_zero_or_pos y.magnitude with hy | hy
    · rw [hx, hy]
    · have hy' := point_shortest_pos hy
      rw [← hpoint, hzero x hx] at hy'
      exact absurd hy' (lt_irrefl 0)
  · rcases Nat.eq_zero_or_pos y.magnitude with hy | hy
    · have hx' := point_shortest_pos hx
      rw [hpoint, hzero y hy] at hx'
      exact absurd hx' (lt_irrefl 0)
    · have hxpoint := holds_shortest hx
      have hypoint := holds_shortest hy
      rw [← hpoint] at hypoint
      rcases Nat.lt_trichotomy x.magnitude y.magnitude with hlt | heq | hgt
      · exact absurd hypoint (not_holds_of_lt hx hlt hxpoint)
      · exact heq
      · exact absurd hxpoint (not_holds_of_lt hy hgt hypoint)

end Binary64
end SchemaForm
