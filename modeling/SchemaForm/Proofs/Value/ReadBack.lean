import Mathlib.Data.List.TakeWhile
import SchemaForm.Proofs.Value.Coerce

/-!
# Integers read back from their text

An integer that is shown as text and read again takes a different way for each type. As an integer
it is read digit by digit, and the digits may not exceed the greatest signed integer of 64 bits,
whatever the sign before them. As a number it is read as a double, which keeps 53 bits, and becomes
an integer again if it is smaller than `2^63`.
-/

namespace SchemaForm

namespace Text

variable {cs : List Char}

theorem isBlank_of_isDigit {c : Char} (h : c.isDigit = true) : isBlank c = false := by
  rw [Char.isDigit, Bool.and_eq_true, decide_eq_true_iff, decide_eq_true_iff] at h
  obtain ⟨hlow, hhigh⟩ := h
  have hlow : 48 ≤ c.toNat := hlow
  have hhigh : c.toNat ≤ 57 := hhigh
  simp only [isBlank, CharRanges.contains, blankRanges, List.any_cons, List.any_nil,
    Bool.or_eq_false_iff, Bool.and_eq_false_iff, decide_eq_false_iff_not, and_true]
  omega

theorem trimLeft_of_not_blank (h : ∀ c ∈ cs, isBlank c = false) : trimLeft cs = cs := by
  cases cs with
  | nil => rfl
  | cons c rest => rw [trimLeft, List.dropWhile_cons, if_neg (by simp [h c])]

theorem trim_of_not_blank (h : ∀ c ∈ cs, isBlank c = false) : trim cs = cs := by
  have hreverse : ∀ c ∈ cs.reverse, isBlank c = false := fun c hc => h c (List.mem_reverse.1 hc)
  have hright : cs.reverse.dropWhile isBlank = cs.reverse := trimLeft_of_not_blank hreverse
  rw [trim, trimLeft_of_not_blank h, hright, List.reverse_reverse]

end Text

namespace Json.Parser

/-- Digits up to the end of the text are all read. -/
theorem spanDigits_toDigits (m : Nat) :
    ∃ digits, spanDigits (Nat.toDigits 10 m) = (digits, []) ∧ digits ≠ [] ∧
      NumberLiteral.digitsValue digits = m := by
  have hdigits : ∀ c ∈ Nat.toDigits 10 m, c.isDigit = true := fun c hc =>
    Nat.isDigit_of_mem_toDigits (by decide) (by decide) hc
  refine ⟨(Nat.toDigits 10 m).map fun c => c.toNat - '0'.toNat, ?_, ?_, ?_⟩
  · rw [spanDigits, List.takeWhile_eq_self_iff.2 hdigits, List.dropWhile_eq_nil_iff.2 hdigits]
  · exact fun h => Nat.toDigits_ne_nil (List.map_eq_nil_iff.1 h)
  · rw [NumberLiteral.digitsValue, List.foldl_map]
    simp only [Nat.mul_comm _ 10]
    exact Nat.ofDigitChars_toDigits (by decide) (by decide)

end Json.Parser

namespace Value

open Binary64 (inInt64_of_natAbs_lt roundInt lastBit ofInt)
open Number (toList_intText)

variable {n : Int}

/-! ### The text of an integer -/

theorem not_blank_of_mem_intText {c : Char} (h : c ∈ (Number.intText n).toList) :
    Text.isBlank c = false := by
  have hdigit : c ∈ Nat.toDigits 10 n.natAbs → Text.isBlank c = false := fun hc =>
    Text.isBlank_of_isDigit (Nat.isDigit_of_mem_toDigits (by decide) (by decide) hc)
  rw [toList_intText] at h
  split at h
  · rcases List.mem_cons.1 h with rfl | h
    · decide
    · exact hdigit h
  · exact hdigit h

theorem splitSign_intText (n : Int) :
    splitSign (Number.intText n).toList = (decide (n < 0), Nat.toDigits 10 n.natAbs) := by
  rw [toList_intText, Decimal.digits]
  by_cases hn : n < 0
  · rw [if_pos hn, splitSign, decide_eq_true hn]
  · -- A digit is no sign.
    have hdigits : ∀ c ∈ Nat.toDigits 10 n.natAbs, c.isDigit = true := fun c hc =>
      Nat.isDigit_of_mem_toDigits (by decide) (by decide) hc
    rw [if_neg hn, decide_eq_false hn]
    unfold splitSign
    split
    · next rest heq => exact absurd (hdigits '-' (heq ▸ List.mem_cons_self)) (by decide)
    · next rest heq => exact absurd (hdigits '+' (heq ▸ List.mem_cons_self)) (by decide)
    · rfl

/-! ### Read as an integer -/

theorem signed_natAbs (n : Int) :
    (if decide (n < 0) = true then -(n.natAbs : Int) else n.natAbs) = n := by
  simp only [decide_eq_true_eq]
  split <;> omega

theorem readInteger?_intText (n : Int) :
    readInteger? (Number.intText n) =
      if n.natAbs < Nat.pow 2 63 then some (.int n) else none := by
  obtain ⟨digits, hspan, hne, hvalue⟩ := Json.Parser.spanDigits_toDigits n.natAbs
  have hempty : digits.isEmpty = false := List.isEmpty_eq_false_iff.2 hne
  rw [readInteger?, Text.trimLeft_of_not_blank fun _ => not_blank_of_mem_intText,
    splitSign_intText]
  dsimp only
  rw [hspan, hvalue, hempty, Bool.false_or, signed_natAbs]
  by_cases hsmall : n.natAbs < Nat.pow 2 63
  · rw [if_pos hsmall, if_neg]
    rw [decide_eq_true_iff, maxDigitsValue]
    omega
  · rw [if_neg hsmall, if_pos]
    rw [decide_eq_true_iff, maxDigitsValue]
    have := Binary64.two_pow_pos 63
    omega

/-! ### Read as a number -/

theorem ofInt_zero : ofInt 0 = Binary64.zero false := by
  decide +kernel

/-- Digits up to the end of the text, without point and exponent, are read as the double nearest to
the integer. -/
theorem readDouble?_intText (h : n.natAbs < Nat.pow 2 64) :
    readDouble? (Number.intText n).toList = some (ofInt n) := by
  obtain ⟨digits, hspan, hne, hvalue⟩ := Json.Parser.spanDigits_toDigits n.natAbs
  have hempty : digits.isEmpty = false := List.isEmpty_eq_false_iff.2 hne
  have hdecimal : decimalDigits? (Nat.toDigits 10 n.natAbs) = some (digits, [], []) := by
    rw [decimalDigits?, hspan]
    dsimp only
    rw [hempty, Bool.false_and, if_neg Bool.false_ne_true]
  rw [readDouble?, splitSign_intText]
  dsimp only
  rw [hdecimal]
  show Binary64.ofDecimal? (decide (n < 0)) (NumberLiteral.digitsValue (digits ++ [])) 0 = _
  rw [List.append_nil, hvalue, Binary64.ofDecimal?]
  by_cases hzero : n.natAbs = 0
  · rw [if_pos hzero, Int.natAbs_eq_zero.1 hzero, ofInt_zero]
    rfl
  · rw [if_neg hzero, if_neg (by decide), if_neg (by omega)]
    show Binary64.nearest? _ (n.natAbs * Nat.pow 10 0 * Binary64.unit) (Nat.pow 10 0) = _
    rw [show Nat.pow 10 0 = 1 from rfl, Nat.mul_one]
    exact (Binary64.nearest?_eq_ofInt h).1

theorem smallInt?_ofInt (h : n.natAbs < Nat.pow 2 64) :
    smallInt? Binary64.toInt64 (ofInt n) =
      if (roundInt n).natAbs < Nat.pow 2 63 then some (.int (roundInt n))
      else none := by
  have htrunc := Binary64.trunc_ofInt h
  have hguard := abs_lt_intLimit_iff (x := ofInt n)
  rw [htrunc] at hguard
  rw [smallInt?]
  by_cases hsmall : (roundInt n).natAbs < Nat.pow 2 63
  · have hrange : Binary64.InInt64 (ofInt n).trunc := by
      rw [htrunc]
      exact inInt64_of_natAbs_lt hsmall
    rw [if_pos (hguard.2 hsmall), if_pos hsmall, Binary64.toInt64_eq_trunc hrange, htrunc]
  · rw [if_neg (fun h => hsmall (hguard.1 h)), if_neg hsmall]

theorem readNumber?_intText (h : n.natAbs < Nat.pow 2 64) :
    readNumber? Binary64.toInt64 (Number.intText n) =
      some (if (roundInt n).natAbs < Nat.pow 2 63 then .int (roundInt n)
        else .num (.float (ofInt n))) := by
  have htrim : Text.trim (Number.intText n).toList = (Number.intText n).toList :=
    Text.trim_of_not_blank fun _ => not_blank_of_mem_intText
  have hne : (Number.intText n).toList ≠ [] := by
    rw [toList_intText]
    split
    · exact List.cons_ne_nil _ _
    · exact Nat.toDigits_ne_nil
  rw [readNumber?, htrim]
  split
  · next hnil => exact absurd hnil hne
  · rw [readDouble?_intText h, Option.bind_eq_bind, Option.bind_some, Binary64.isWhole_ofInt,
      if_pos rfl, smallInt?_ofInt h]
    split <;> rfl

/-! ### There and back -/

theorem coerce_string_int (n : Int) : coerce .string (.int n) = .str (Number.intText n) := rfl

theorem coerce_integer_intText (n : Int) :
    coerce .integer (.str (Number.intText n)) =
      if n.natAbs < Nat.pow 2 63 then .int n else .str (Number.intText n) := by
  show (readInteger? (Number.intText n)).getD _ = _
  rw [readInteger?_intText]
  split <;> rfl

/-- An integer comes back from its text as an integer if its digits are those of an integer of 64
bits. -/
theorem coerce_integer_intText_eq_iff (n : Int) :
    coerce .integer (.str (Number.intText n)) = .int n ↔ n.natAbs < Nat.pow 2 63 := by
  rw [coerce_integer_intText]
  constructor
  · intro hsame
    split at hsame
    · assumption
    · cases hsame
  · exact fun hsmall => if_pos hsmall

theorem coerce_number_intText (h : n.natAbs < Nat.pow 2 64) :
    coerce .number (.str (Number.intText n)) =
      if (roundInt n).natAbs < Nat.pow 2 63 then .int (roundInt n)
      else .num (.float (ofInt n)) := by
  show (readNumber? Binary64.toInt64 (Number.intText n)).getD _ = _
  rw [readNumber?_intText h, Option.getD_some]

/-- An integer comes back from its text as a number if it is smaller than `2^63` and only zeros
stand behind its 53 leading bits. -/
theorem coerce_number_intText_eq_iff (h : n.natAbs < Nat.pow 2 64) :
    coerce .number (.str (Number.intText n)) = .int n ↔
      n.natAbs < Nat.pow 2 63 ∧ lastBit n.natAbs ∣ n.natAbs := by
  rw [coerce_number_intText h, ← Binary64.roundInt_eq_self_iff]
  constructor
  · intro hsame
    split at hsame
    · next hsmall =>
      have hround : roundInt n = n := Number.int.inj (Json.num.inj hsame)
      exact ⟨hround ▸ hsmall, hround⟩
    · cases hsame
  · rintro ⟨hsmall, hround⟩
    rw [hround, if_pos hsmall]

/-- What an integer of JSON text comes back as when it is shown as text and read again. As an
integer it comes back as itself if it is smaller than `2^63`, and else stays text. As a number it
comes back rounded to 53 bits, as a double where that is not smaller than `2^63`. Either way an
integer of at most 53 bits comes back as itself. -/
theorem coerce_coerce_string_int (hleast : Number.minInt ≤ n) (hgreatest : n ≤ Number.maxInt) :
    coerce .integer (coerce .string (.int n)) =
        (if n.natAbs < Nat.pow 2 63 then .int n else .str (Number.intText n)) ∧
      coerce .number (coerce .string (.int n)) =
        (if (roundInt n).natAbs < Nat.pow 2 63 then .int (roundInt n)
          else .num (.float (ofInt n))) ∧
      (coerce .integer (coerce .string (.int n)) = .int n ↔ n.natAbs < Nat.pow 2 63) ∧
      (coerce .number (coerce .string (.int n)) = .int n ↔
        n.natAbs < Nat.pow 2 63 ∧ lastBit n.natAbs ∣ n.natAbs) ∧
      (n.natAbs < Nat.pow 2 53 → ∀ type ∈ [JsonType.integer, .number],
        coerce type (coerce .string (.int n)) = .int n) := by
  have hbits := Number.natAbs_lt_of_range hleast hgreatest
  rw [coerce_string_int]
  refine ⟨coerce_integer_intText n, coerce_number_intText hbits, coerce_integer_intText_eq_iff n,
    coerce_number_intText_eq_iff hbits, fun hshort => ?_⟩
  have hsmall : n.natAbs < Nat.pow 2 63 := Nat.lt_trans hshort (by decide)
  have hwhole := Binary64.roundInt_eq_self_iff.1 (Binary64.roundInt_of_lt hshort)
  simp only [List.forall_mem_cons, List.not_mem_nil, false_implies, implies_true, and_true]
  exact ⟨(coerce_integer_intText_eq_iff n).2 hsmall,
    (coerce_number_intText_eq_iff hbits).2 ⟨hsmall, hwhole⟩⟩

/-- One more than `2^53` comes back as an integer, and loses its last bit as a number. -/
theorem coerce_coerce_string_oddInteger :
    Number.minInt ≤ 9007199254740993 ∧ 9007199254740993 ≤ Number.maxInt ∧
      coerce .integer (coerce .string (.int 9007199254740993)) = .int 9007199254740993 ∧
      coerce .number (coerce .string (.int 9007199254740993)) = .int 9007199254740992 := by
  have hleast : Number.minInt ≤ 9007199254740993 := by decide
  have hgreatest : 9007199254740993 ≤ Number.maxInt := by decide
  obtain ⟨hinteger, hnumber, -⟩ := coerce_coerce_string_int hleast hgreatest
  have hround : roundInt 9007199254740993 = 9007199254740992 := by decide +kernel
  rw [hround] at hnumber
  exact ⟨hleast, hgreatest, hinteger.trans (if_pos (by decide)), hnumber.trans (if_pos (by decide))⟩

/-- The least integer stays text, and so does the first one that needs 64 bits without a sign. As
numbers an odd integer of 54 bits is altered, and one of 64 bits becomes a double. -/
theorem integers_lost_in_text :
    coerce .integer (coerce .string (.int (-9223372036854775808))) ≠ .int (-9223372036854775808) ∧
      coerce .integer (coerce .string (.int 9223372036854775808)) ≠ .int 9223372036854775808 ∧
      coerce .number (coerce .string (.int 9007199254740993)) ≠ .int 9007199254740993 ∧
      coerce .number (coerce .string (.int 9223372036854775808)) ≠ .int 9223372036854775808 := by
  have hodd : (9007199254740993 : Int).natAbs < Nat.pow 2 64 := by decide
  have hlarge : (9223372036854775808 : Int).natAbs < Nat.pow 2 64 := by decide
  simp only [coerce_string_int, Ne, coerce_integer_intText_eq_iff,
    coerce_number_intText_eq_iff hodd, coerce_number_intText_eq_iff hlarge]
  decide +kernel

end Value
end SchemaForm
