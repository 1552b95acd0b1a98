import Mathlib.Data.List.Basic
import SchemaForm.Decimal.Notation
import SchemaForm.Proofs.Decimal.Shortest

/-!
# What the text of a double tells

A decimal is read back from either notation. Positional notation is the digits around a point, and
their count behind it tells the exponent; scientific notation names the exponent of the leading
digit, and only it has an `e`. Main statement: different doubles have different texts.
-/

namespace SchemaForm

namespace Decimal

/-! ### Where a run of characters ends -/

/-- The text is over for some characters: it is empty or goes on with another one. -/
def Stops (p : Char → Prop) (rest : List Char) : Prop := ∀ c ∈ rest.head?, ¬ p c

/-- A run of some characters is told from the whole text, if the text stops behind it. -/
theorem append_inj_of_stops {p : Char → Prop} {xs ys rest more : List Char}
    (hxs : ∀ c ∈ xs, p c) (hys : ∀ c ∈ ys, p c) (hrest : Stops p rest) (hmore : Stops p more)
    (h : xs ++ rest = ys ++ more) : xs = ys ∧ rest = more := by
  induction xs generalizing ys with
  | nil =>
    cases ys with
    | nil => exact ⟨rfl, h⟩
    | cons y ys =>
      rw [List.nil_append] at h
      exact absurd (hys y List.mem_cons_self) (hrest y (by rw [h]; rfl))
  | cons x xs ih =>
    cases ys with
    | nil =>
      rw [List.nil_append] at h
      exact absurd (hxs x List.mem_cons_self) (hmore x (by rw [← h]; rfl))
    | cons y ys =>
      obtain ⟨rfl, htail⟩ := List.cons.inj h
      obtain ⟨rfl, rfl⟩ := ih (fun c hc => hxs c (List.mem_cons_of_mem _ hc))
        (fun c hc => hys c (List.mem_cons_of_mem _ hc)) htail
      exact ⟨rfl, rfl⟩

theorem stops_cons {p : Char → Prop} {c : Char} (h : ¬ p c) (rest : List Char) :
    Stops p (c :: rest) := by
  rintro d ⟨⟩
  exact h

/-! ### Digits -/

/-- The number that digits stand for. -/
def ofDigits (digits : List Char) : Nat := Nat.ofDigitChars 10 digits 0

theorem ofDigits_digits (n : Nat) : ofDigits (digits n) = n :=
  Nat.ofDigitChars_toDigits (by decide) (by decide)

theorem digits_injective {m n : Nat} (h : digits m = digits n) : m = n := by
  rw [← ofDigits_digits m, h, ofDigits_digits]

theorem isDigit_of_mem_digits {n : Nat} {c : Char} (h : c ∈ digits n) : c.isDigit = true :=
  Nat.isDigit_of_mem_toDigits (by decide) (by decide) h

theorem digits_ne_nil (n : Nat) : digits n ≠ [] := Nat.toDigits_ne_nil

theorem ofDigitChars_replicate (count init : Nat) :
    Nat.ofDigitChars 10 (List.replicate count '0') init = init * 10 ^ count := by
  induction count generalizing init with
  | zero => exact (Nat.mul_one init).symm
  | succ count ih =>
    rw [List.replicate_succ, Nat.ofDigitChars, List.foldl_cons]
    refine (ih _).trans ?_
    rw [Nat.pow_succ']
    show (10 * init + 0) * 10 ^ count = _
    ring

/-! ### Positional notation -/

/-- The number that digits around a point stand for. -/
def positional (whole fraction : List Char) : ℚ :=
  ofDigits (whole ++ fraction) * (10 : ℚ) ^ (-(fraction.length : Int))

theorem ofDigits_append_zeros (digits : List Char) (count : Nat) :
    ofDigits (digits ++ List.replicate count '0') = ofDigits digits * 10 ^ count := by
  rw [ofDigits, Nat.ofDigitChars_append, ofDigitChars_replicate, ofDigits]

theorem ofDigits_zeros_append (digits : List Char) (count : Nat) :
    ofDigits (List.replicate count '0' ++ digits) = ofDigits digits := by
  rw [ofDigits, Nat.ofDigitChars_append, ofDigitChars_replicate, Nat.zero_mul, ofDigits]

/-- A zero behind the point changes nothing. -/
theorem positional_zero (whole : List Char) : positional whole ['0'] = positional whole [] := by
  have hzero := ofDigits_append_zeros whole 1
  rw [List.replicate_one] at hzero
  rw [positional, positional, hzero, List.append_nil]
  push_cast
  simp

theorem split_cases (d : Decimal) :
    (∃ zeros, d.split = (['0'], List.replicate zeros '0' ++ digits d.coefficient) ∧
        d.exponent = -((zeros + (digits d.coefficient).length : ℕ) : Int)) ∨
      (∃ zeros : ℕ, d.split = (digits d.coefficient ++ List.replicate zeros '0', []) ∧
        d.exponent = zeros) ∨
      ∃ front rest, d.split = (front, rest) ∧ digits d.coefficient = front ++ rest ∧
        front ≠ [] ∧ d.exponent = -(rest.length : Int) := by
  unfold split
  dsimp only
  split
  · next hpoint =>
    refine Or.inl ⟨_, rfl, ?_⟩
    omega
  · next hpoint =>
    split
    · next hlong =>
      refine Or.inr (Or.inl ⟨_, rfl, ?_⟩)
      omega
    · next hshort =>
      refine Or.inr (Or.inr ⟨_, _, rfl, (List.take_append_drop _ _).symm, ?_, ?_⟩)
      · intro hnil
        have hlength := congrArg List.length hnil
        rw [List.length_take, List.length_nil] at hlength
        omega
      · rw [List.length_drop]
        omega

theorem positional_split (d : Decimal) : positional d.split.1 d.split.2 = d.value := by
  rcases split_cases d with ⟨zeros, hsplit, hexponent⟩ | ⟨zeros, hsplit, hexponent⟩ |
    ⟨front, rest, hsplit, hdigits, -, hexponent⟩
  · have hread : ofDigits (['0'] ++ (List.replicate zeros '0' ++ digits d.coefficient)) =
        d.coefficient := by
      rw [← List.append_assoc, ← List.replicate_one, List.replicate_append_replicate,
        ofDigits_zeros_append, ofDigits_digits]
    rw [hsplit, positional, hread, value, hexponent, List.length_append, List.length_replicate]
  · rw [hsplit, positional, value, hexponent, List.append_nil, ofDigits_append_zeros,
      ofDigits_digits]
    push_cast
    simp
  · rw [hsplit, positional, value, hexponent, ← hdigits, ofDigits_digits]

theorem isDigit_of_mem_split {d : Decimal} {c : Char} (h : c ∈ d.split.1 ++ d.split.2) :
    c.isDigit = true := by
  have hzero : ∀ count, c ∈ List.replicate count '0' → c.isDigit = true := by
    intro count hc
    rw [List.eq_of_mem_replicate hc]
    rfl
  rcases split_cases d with ⟨zeros, hsplit, -⟩ | ⟨zeros, hsplit, -⟩ |
    ⟨front, rest, hsplit, hdigits, -, -⟩
  · rw [hsplit, ← List.append_assoc, ← List.replicate_one, List.replicate_append_replicate] at h
    exact (List.mem_append.1 h).elim (hzero _) isDigit_of_mem_digits
  · rw [hsplit, List.append_nil] at h
    exact (List.mem_append.1 h).elim isDigit_of_mem_digits (hzero _)
  · rw [hsplit, ← hdigits] at h
    exact isDigit_of_mem_digits h

theorem split_ne_nil (d : Decimal) : d.split.1 ≠ [] := by
  rcases split_cases d with ⟨zeros, hsplit, -⟩ | ⟨zeros, hsplit, -⟩ |
    ⟨front, rest, hsplit, -, hfront, -⟩
  · rw [hsplit]
    exact List.cons_ne_nil _ _
  · rw [hsplit]
    exact List.append_ne_nil_of_left_ne_nil (digits_ne_nil _) _
  · rw [hsplit]
    exact hfront

/-- Before and behind the point of positional notation stand digits, which tell the decimal. -/
theorem exists_toList_pointed (d : Decimal) :
    ∃ whole fraction, d.pointed.toList = whole ++ '.' :: fraction ∧ whole ≠ [] ∧
      (∀ c ∈ whole ++ fraction, c.isDigit = true) ∧ positional whole fraction = d.value := by
  by_cases hempty : d.split.2 = []
  · refine ⟨d.split.1, ['0'], ?_, split_ne_nil d, ?_, ?_⟩
    · rw [pointed, String.toList_ofList, hempty]
      rfl
    · intro c hc
      rcases List.mem_append.1 hc with hc | hc
      · exact isDigit_of_mem_split (List.mem_append_left _ hc)
      · rw [List.mem_singleton.1 hc]
        rfl
    · rw [positional_zero, ← positional_split, hempty]
  · refine ⟨d.split.1, d.split.2, ?_, split_ne_nil d, fun c => isDigit_of_mem_split,
      positional_split d⟩
    rw [pointed, String.toList_ofList, if_neg]
    rwa [List.isEmpty_iff]

/-! ### Scientific notation -/

/-- The digits with a point behind the first one, if there are more. -/
def mantissa : List Char → List Char
  | digit :: next :: rest => digit :: '.' :: next :: rest
  | short => short

theorem toList_scientific (d : Decimal) :
    d.scientific.toList = mantissa (digits d.coefficient) ++
      'e' :: (if d.leading < 0 then '-' else '+') :: digits d.leading.natAbs := by
  rw [scientific, String.toList_ofList]
  rfl

theorem mem_mantissa {c : Char} {digits : List Char} (h : c ∈ mantissa digits) :
    c ∈ digits ∨ c = '.' := by
  unfold mantissa at h
  split at h
  · simp only [List.mem_cons] at h ⊢
    tauto
  · exact Or.inl h

theorem filter_mantissa {digits : List Char} (h : ∀ c ∈ digits, c.isDigit = true) :
    (mantissa digits).filter Char.isDigit = digits := by
  have hself : digits.filter Char.isDigit = digits := List.filter_eq_self.2 h
  unfold mantissa
  split
  · next digit next rest =>
    rw [List.filter_cons] at hself ⊢
    simpa using hself
  · exact hself

/-- A decimal is told from its digits and the exponent of the leading one. -/
theorem eq_of_leading_eq {d e : Decimal} (hdigits : digits d.coefficient = digits e.coefficient)
    (hleading : d.leading = e.leading) : d = e := by
  have hcoefficient := digits_injective hdigits
  rw [leading, leading, hdigits] at hleading
  obtain ⟨coefficient, exponent⟩ := d
  obtain ⟨coefficient', exponent'⟩ := e
  simp only [mk.injEq]
  exact ⟨hcoefficient, by simpa using hleading⟩

theorem eq_of_scientific_eq {d e : Decimal} (h : d.scientific = e.scientific) : d = e := by
  have hdigits : ∀ n, ∀ c ∈ digits n, c.isDigit = true := fun n c => isDigit_of_mem_digits
  have hmantissa : ∀ n, ∀ c ∈ mantissa (digits n), c ≠ 'e' := by
    rintro n c hc rfl
    rcases mem_mantissa hc with hc | hc
    · exact absurd (hdigits n _ hc) (by decide)
    · exact absurd hc (by decide)
  have hchars := congrArg String.toList h
  rw [toList_scientific, toList_scientific] at hchars
  obtain ⟨hfront, hrest⟩ := append_inj_of_stops (p := (· ≠ 'e')) (hmantissa _) (hmantissa _)
    (stops_cons (by simp) _) (stops_cons (by simp) _) hchars
  obtain ⟨hsign, hexponent⟩ := List.cons.inj (List.cons.inj hrest).2
  apply eq_of_leading_eq
  · rw [← filter_mantissa (hdigits d.coefficient), hfront, filter_mantissa (hdigits _)]
  · have habs := digits_injective hexponent
    split at hsign <;> split at hsign
    · omega
    · exact absurd hsign (by decide)
    · exact absurd hsign (by decide)
    · omega

/-! ### Characters of numbers -/

/-- The characters that the text of a number holds. -/
def IsNumeric (c : Char) : Prop := c.isDigit = true ∨ c ∈ ['.', 'e', '+', '-']

instance : DecidablePred IsNumeric := fun c =>
  inferInstanceAs (Decidable (c.isDigit = true ∨ c ∈ ['.', 'e', '+', '-']))

/-- A text that starts with a digit and holds nothing but characters of numbers. -/
structure Unsigned (text : List Char) : Prop where
  head : ∃ c rest, text = c :: rest ∧ c.isDigit = true
  numeric : ∀ c ∈ text, IsNumeric c

theorem unsigned_digits (n : Nat) : Unsigned (digits n) := by
  constructor
  · obtain ⟨c, rest, hdigits⟩ := List.exists_cons_of_ne_nil (digits_ne_nil n)
    exact ⟨c, rest, hdigits, isDigit_of_mem_digits (by rw [hdigits]; exact List.mem_cons_self)⟩
  · intro c hc
    exact Or.inl (isDigit_of_mem_digits hc)

theorem unsigned_pointed (d : Decimal) : Unsigned d.pointed.toList := by
  obtain ⟨whole, fraction, htext, hwhole, hdigits, -⟩ := exists_toList_pointed d
  obtain ⟨c, rest, rfl⟩ := List.exists_cons_of_ne_nil hwhole
  rw [htext]
  constructor
  · exact ⟨c, _, rfl, hdigits c List.mem_cons_self⟩
  · intro c' hc
    rcases List.mem_append.1 hc with hc | hc
    · exact Or.inl (hdigits c' (List.mem_append_left _ hc))
    · rcases List.mem_cons.1 hc with rfl | hc
      · exact Or.inr (by decide)
      · exact Or.inl (hdigits c' (List.mem_append_right _ hc))

theorem unsigned_scientific (d : Decimal) : Unsigned d.scientific.toList := by
  obtain ⟨c, rest, hdigits⟩ := List.exists_cons_of_ne_nil (digits_ne_nil d.coefficient)
  have hc : c.isDigit = true := isDigit_of_mem_digits (by rw [hdigits]; exact List.mem_cons_self)
  rw [toList_scientific]
  constructor
  · rw [hdigits]
    cases rest <;> exact ⟨c, _, rfl, hc⟩
  · intro c' hc'
    rcases List.mem_append.1 hc' with hc' | hc'
    · rcases mem_mantissa hc' with hc' | rfl
      · exact Or.inl (isDigit_of_mem_digits hc')
      · exact Or.inr (by decide)
    · rcases List.mem_cons.1 hc' with rfl | hc'
      · exact Or.inr (by decide)
      · rcases List.mem_cons.1 hc' with rfl | hc'
        · split
          · exact Or.inr (by decide)
          · exact Or.inr (by decide)
        · exact Or.inl (isDigit_of_mem_digits hc')

/-- A sign is told from the text behind it. -/
theorem signed_injective {a b : Bool} {xs ys : List Char} (hxs : Unsigned xs) (hys : Unsigned ys)
    (h : (if a then '-' :: xs else xs) = if b then '-' :: ys else ys) : a = b ∧ xs = ys := by
  obtain ⟨c, rest, rfl, hc⟩ := hxs.head
  obtain ⟨d, more, rfl, hd⟩ := hys.head
  cases a <;> cases b
  · exact ⟨rfl, h⟩
  · have hsign : c = '-' := (List.cons.inj h).1
    exact absurd (hsign ▸ hc) (by decide)
  · have hsign : '-' = d := (List.cons.inj h).1
    exact absurd (hsign ▸ hd) (by decide)
  · exact ⟨rfl, (List.cons.inj h).2⟩

/-- Only scientific notation has an `e`. -/
theorem pointed_ne_scientific (d e : Decimal) : d.pointed ≠ e.scientific := by
  intro h
  have hchars := congrArg String.toList h
  obtain ⟨whole, fraction, htext, -, hdigits, -⟩ := exists_toList_pointed d
  rw [htext, toList_scientific] at hchars
  have hmem : 'e' ∈ whole ++ '.' :: fraction := by
    rw [hchars]
    exact List.mem_append_right _ List.mem_cons_self
  rcases List.mem_append.1 hmem with hmem | hmem
  · exact absurd (hdigits _ (List.mem_append_left _ hmem)) (by decide)
  · rcases List.mem_cons.1 hmem with heq | hmem
    · exact absurd heq (by decide)
    · exact absurd (hdigits _ (List.mem_append_right _ hmem)) (by decide)

/-- The text around the point tells the decimal. -/
theorem value_eq_of_pointed_eq {d e : Decimal} (h : d.pointed = e.pointed) : d.value = e.value := by
  obtain ⟨whole, fraction, htext, -, hdigits, hvalue⟩ := exists_toList_pointed d
  obtain ⟨whole', fraction', htext', -, hdigits', hvalue'⟩ := exists_toList_pointed e
  have hchars := congrArg String.toList h
  rw [htext, htext'] at hchars
  have hpoint : ¬ '.'.isDigit = true := by decide
  obtain ⟨rfl, hrest⟩ := append_inj_of_stops (p := (Char.isDigit · = true))
    (fun c hc => hdigits c (List.mem_append_left _ hc))
    (fun c hc => hdigits' c (List.mem_append_left _ hc))
    (stops_cons hpoint _) (stops_cons hpoint _) hchars
  obtain rfl := (List.cons.inj hrest).2
  rw [← hvalue, hvalue']

end Decimal

namespace Binary64

open Decimal

/-- The text of the absolute value. -/
def body (x : Binary64) : String :=
  if x.shortest.coefficient = 0 ∨ (-5 ≤ x.shortest.leading ∧ x.shortest.leading ≤ 15) then
    x.shortest.pointed
  else
    x.shortest.scientific

theorem text_eq_signed (x : Binary64) : x.text = x.signed x.body :=
  (apply_ite x.signed _ _ _).symm

theorem body_cases (x : Binary64) :
    x.body = x.shortest.pointed ∨ x.body = x.shortest.scientific := by
  unfold body
  split
  · exact Or.inl rfl
  · exact Or.inr rfl

theorem unsigned_body (x : Binary64) : Unsigned x.body.toList := by
  rcases body_cases x with h | h
  · rw [h]
    exact unsigned_pointed _
  · rw [h]
    exact unsigned_scientific _

/-- The text of a double is no whole number: it has a point or an exponent. -/
theorem exists_not_isDigit_body (x : Binary64) : ∃ c ∈ x.body.toList, ¬ c.isDigit = true := by
  rcases body_cases x with h | h
  · obtain ⟨whole, fraction, htext, -⟩ := exists_toList_pointed x.shortest
    rw [h, htext]
    exact ⟨'.', List.mem_append_right _ List.mem_cons_self, by decide⟩
  · rw [h, toList_scientific]
    exact ⟨'e', List.mem_append_right _ List.mem_cons_self, by decide⟩

theorem toList_text (x : Binary64) :
    x.text.toList = if x.negative then '-' :: x.body.toList else x.body.toList := by
  rw [text_eq_signed, signed]
  split
  · rw [String.toList_append]
    rfl
  · rfl

/-- The text of the absolute value tells the shortest decimal. -/
theorem value_eq_of_body_eq {x y : Binary64} (h : x.body = y.body) :
    x.shortest.value = y.shortest.value := by
  rcases body_cases x with hx | hx <;> rcases body_cases y with hy | hy
  · exact value_eq_of_pointed_eq (hx.symm.trans (h.trans hy))
  · exact absurd (hx.symm.trans (h.trans hy)) (pointed_ne_scientific _ _)
  · exact absurd (hy.symm.trans (h.symm.trans hx)) (pointed_ne_scientific _ _)
  · rw [eq_of_scientific_eq (hx.symm.trans (h.trans hy))]

/-- Different doubles have different texts. -/
theorem text_injective {x y : Binary64} (h : x.text = y.text) : x = y := by
  have hchars := congrArg String.toList h
  rw [toList_text, toList_text] at hchars
  obtain ⟨hsign, hbody⟩ := signed_injective (unsigned_body x) (unsigned_body y) hchars
  obtain ⟨hsignificand, hexponent⟩ := fields_eq_of_magnitude_eq
    (magnitude_eq_of_value_shortest (value_eq_of_body_eq (String.toList_inj.1 hbody)))
  obtain ⟨negative, significand, exponent, _, _, _⟩ := x
  obtain ⟨negative', significand', exponent', _, _, _⟩ := y
  cases hsign
  cases hsignificand
  cases hexponent
  rfl

end Binary64
end SchemaForm
