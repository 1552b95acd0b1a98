import SchemaForm.Json.Parser
import SchemaForm.Json.Printer
import SchemaForm.Json.Size
import SchemaForm.Proofs.Decimal.Notation

/-!
# What the text of a value tells

A quoted string is read back by the reader of strings, a number ends where no character of a number
follows, and arrays and objects close behind their last part. So a value is told from the front of
any text that goes on with a comma or a closing bracket. Main statement: different values have
different compact texts.
-/

namespace SchemaForm

open Decimal (IsNumeric Stops Unsigned append_inj_of_stops signed_injective stops_cons)

/-! ### Numbers -/

namespace Number

theorem toList_text_int (n : Int) :
    (int n).text.toList =
      if decide (n < 0) then '-' :: Decimal.digits n.natAbs else Decimal.digits n.natAbs := by
  simp only [text, toList_intText, decide_eq_true_eq]

/-- The text of a number is that of its absolute value, behind a sign if it is negative. -/
theorem exists_toList_text (n : Number) :
    ∃ (negative : Bool) (body : List Char),
      n.text.toList = (if negative then '-' :: body else body) ∧ Unsigned body := by
  cases n with
  | int n => exact ⟨decide (n < 0), _, toList_text_int n, Decimal.unsigned_digits _⟩
  | float x => exact ⟨x.negative, _, Binary64.toList_text x, Binary64.unsigned_body x⟩

theorem isNumeric_of_mem_text {n : Number} {c : Char} (h : c ∈ n.text.toList) : IsNumeric c := by
  obtain ⟨negative, body, htext, hbody⟩ := exists_toList_text n
  rw [htext] at h
  split at h
  · rcases List.mem_cons.1 h with rfl | h
    · exact Or.inr (by decide)
    · exact hbody.numeric c h
  · exact hbody.numeric c h

/-- An integer and a double have different texts. -/
theorem int_text_ne_float_text (n : Int) (x : Binary64) : (int n).text ≠ (float x).text := by
  intro h
  have hchars := congrArg String.toList h
  rw [toList_text_int, text, Binary64.toList_text] at hchars
  obtain ⟨-, hbody⟩ := signed_injective (Decimal.unsigned_digits _) (Binary64.unsigned_body x)
    hchars
  obtain ⟨c, hc, hdigit⟩ := x.exists_not_isDigit_body
  rw [← hbody] at hc
  exact hdigit (Decimal.isDigit_of_mem_digits hc)

/-- Different numbers have different texts. -/
theorem text_injective {m n : Number} (h : m.text = n.text) : m = n := by
  cases m with
  | int m =>
    cases n with
    | int n =>
      have hchars := congrArg String.toList h
      rw [toList_text_int, toList_text_int] at hchars
      obtain ⟨hsign, hdigits⟩ := signed_injective (Decimal.unsigned_digits _)
        (Decimal.unsigned_digits _) hchars
      have habs := Decimal.digits_injective hdigits
      have hneg : m < 0 ↔ n < 0 := decide_eq_decide.1 hsign
      congr 1
      omega
    | float y => exact absurd h (int_text_ne_float_text m y)
  | float x =>
    cases n with
    | int n => exact absurd h.symm (int_text_ne_float_text n x)
    | float y => rw [Binary64.text_injective h]

end Number

namespace Json

/-! ### Strings -/

namespace Parser

theorem unit?_hexDigit {n : Nat} (h : n < 0x20) :
    unit? '0' '0' (hexDigit (n / 16)) (hexDigit n) = some n := by
  have hall : ∀ n < 0x20, unit? '0' '0' (hexDigit (n / 16)) (hexDigit n) = some n := by decide
  exact hall n h

theorem quoted?_simpleEscape {e c : Char} (h : simpleEscape? e = some c) (rest : List Char) :
    quoted? ('\\' :: e :: rest) = (quoted? rest).map fun found => (c :: found.1, found.2) := by
  rw [quoted?, h]
  rintro _ _ _ _ _ rfl
  cases h

theorem quoted?_control {n : Nat} (h : n < 0x20) (rest : List Char) :
    quoted? ('\\' :: 'u' :: '0' :: '0' :: hexDigit (n / 16) :: hexDigit n :: rest) =
      (quoted? rest).map fun found => (Char.ofNat n :: found.1, found.2) := by
  have hlow : isLowSurrogate n = false := by
    simp [isLowSurrogate]
    omega
  have hhigh : isHighSurrogate n = false := by
    simp [isHighSurrogate]
    omega
  rw [quoted?, unit?_hexDigit h]
  simp [hlow, hhigh]

theorem quoted?_plain {c : Char} (hquote : c ≠ '"') (hslash : c ≠ '\\')
    (hcontrol : ¬ c.toNat < 0x20) (rest : List Char) :
    quoted? (c :: rest) = (quoted? rest).map fun found => (c :: found.1, found.2) := by
  rw [quoted?, if_neg]
  · rintro (h | h)
    · exact hcontrol h
    · exact hslash h
  · exact hquote
  · exact fun _ _ _ _ _ h _ => hslash h
  · exact fun _ _ h _ => hslash h

/-- A written character is read as it was. -/
theorem quoted?_escapeChar (c : Char) (rest : List Char) :
    quoted? (escapeChar c ++ rest) =
      (quoted? rest).map fun found => (c :: found.1, found.2) := by
  unfold escapeChar
  split_ifs with hquote hslash hb ht hn hf hr hcontrol
  · rw [hquote]
    exact quoted?_simpleEscape rfl rest
  · rw [hslash]
    exact quoted?_simpleEscape rfl rest
  · rw [hb]
    exact quoted?_simpleEscape rfl rest
  · rw [ht]
    exact quoted?_simpleEscape rfl rest
  · rw [hn]
    exact quoted?_simpleEscape rfl rest
  · rw [hf]
    exact quoted?_simpleEscape rfl rest
  · rw [hr]
    exact quoted?_simpleEscape rfl rest
  · refine (quoted?_control hcontrol rest).trans ?_
    rw [Char.ofNat_toNat]
  · exact quoted?_plain hquote hslash hcontrol rest

/-- A written string is read as it was, up to its closing quote. -/
theorem quoted?_flatMap_escapeChar (s rest : List Char) :
    quoted? (s.flatMap escapeChar ++ '"' :: rest) = some (s, rest) := by
  induction s with
  | nil => rw [List.flatMap_nil, List.nil_append, quoted?]
  | cons c s ih => rw [List.flatMap_cons, List.append_assoc, quoted?_escapeChar, ih, Option.map_some]

end Parser

theorem toList_quote (s : String) :
    (quote s).toList = '"' :: (s.toList.flatMap escapeChar ++ ['"']) := by
  rw [quote, String.toList_ofList, List.cons_append]

/-- A quoted string is told from the front of any text. -/
theorem quote_append_inj {s t : String} {rest more : List Char}
    (h : (quote s).toList ++ rest = (quote t).toList ++ more) : s = t ∧ rest = more := by
  rw [toList_quote, toList_quote, List.cons_append, List.cons_append, List.append_assoc,
    List.append_assoc, List.singleton_append, List.singleton_append] at h
  have hread := congrArg Parser.quoted? (List.cons.inj h).2
  rw [Parser.quoted?_flatMap_escapeChar, Parser.quoted?_flatMap_escapeChar] at hread
  obtain ⟨hchars, hrest⟩ := Prod.mk.inj (Option.some.inj hread)
  exact ⟨String.toList_inj.1 hchars, hrest⟩

/-! ### Parts with commas between them -/

/-- The text of a thing is told from the front of any text that goes on with no character of a
number. -/
def Told {α : Type} (write : α → List Char) (a : α) : Prop :=
  ∀ b rest more, Stops IsNumeric rest → Stops IsNumeric more →
    write a ++ rest = write b ++ more → a = b ∧ rest = more

/-- The text of the parts behind the first one. -/
def further {α : Type} (write : α → List Char) (parts : List α) : List Char :=
  parts.flatMap fun a => ',' :: write a

variable {α : Type} {write : α → List Char} {close : Char}

theorem further_cons (a : α) (parts : List α) (rest : List Char) :
    further write (a :: parts) ++ rest = ',' :: (write a ++ (further write parts ++ rest)) := by
  simp [further]

theorem stops_further (hclose : ¬ IsNumeric close) (parts : List α) (rest : List Char) :
    Stops IsNumeric (further write parts ++ close :: rest) := by
  cases parts with
  | nil => exact stops_cons hclose rest
  | cons a parts =>
    rw [further_cons]
    exact stops_cons (by decide) _

/-- If each part is told, so are all, up to the closing bracket. -/
theorem further_inj (hclose : ¬ IsNumeric close) (hcomma : close ≠ ',') {as bs : List α}
    {rest more : List Char} (has : ∀ a ∈ as, Told write a)
    (h : further write as ++ close :: rest = further write bs ++ close :: more) :
    as = bs ∧ rest = more := by
  induction as generalizing bs with
  | nil =>
    cases bs with
    | nil => exact ⟨rfl, (List.cons.inj h).2⟩
    | cons b bs =>
      rw [further_cons] at h
      exact absurd (List.cons.inj h).1 hcomma
  | cons a as ih =>
    cases bs with
    | nil =>
      rw [further_cons] at h
      exact absurd (List.cons.inj h).1.symm hcomma
    | cons b bs =>
      rw [further_cons, further_cons] at h
      obtain ⟨rfl, htail⟩ := has a List.mem_cons_self b _ _ (stops_further hclose as rest)
        (stops_further hclose bs more) (List.cons.inj h).2
      obtain ⟨rfl, rfl⟩ := ih (fun a ha => has a (List.mem_cons_of_mem _ ha)) htail
      exact ⟨rfl, rfl⟩

/-- The text of parts with commas between them. -/
def parted (write : α → List Char) : List α → List Char
  | [] => []
  | a :: parts => write a ++ further write parts

/-- The same, if no part starts with the closing bracket. -/
theorem parted_inj (hclose : ¬ IsNumeric close) (hcomma : close ≠ ',')
    (hopen : ∀ a rest more, write a ++ rest ≠ close :: more) {as bs : List α}
    {rest more : List Char} (has : ∀ a ∈ as, Told write a)
    (h : parted write as ++ close :: rest = parted write bs ++ close :: more) :
    as = bs ∧ rest = more := by
  cases as with
  | nil =>
    cases bs with
    | nil => exact ⟨rfl, (List.cons.inj h).2⟩
    | cons b bs =>
      rw [parted, parted, List.append_assoc, List.nil_append] at h
      exact absurd h.symm (hopen b _ _)
  | cons a as =>
    cases bs with
    | nil =>
      rw [parted, parted, List.append_assoc, List.nil_append] at h
      exact absurd h (hopen a _ _)
    | cons b bs =>
      rw [parted, parted, List.append_assoc, List.append_assoc] at h
      obtain ⟨rfl, htail⟩ := has a List.mem_cons_self b _ _ (stops_further hclose as rest)
        (stops_further hclose bs more) h
      obtain ⟨rfl, rfl⟩ :=
        further_inj hclose hcomma (fun a ha => has a (List.mem_cons_of_mem _ ha)) htail
      exact ⟨rfl, rfl⟩

/-- The same behind an opening bracket. -/
theorem enclosed_inj {first : Char} (hclose : ¬ IsNumeric close) (hcomma : close ≠ ',')
    (hopen : ∀ a rest more, write a ++ rest ≠ close :: more) {as bs : List α}
    {rest more : List Char} (has : ∀ a ∈ as, Told write a)
    (h : first :: (parted write as ++ [close]) ++ rest =
      first :: (parted write bs ++ [close]) ++ more) :
    as = bs ∧ rest = more := by
  apply parted_inj hclose hcomma hopen has
  simpa using h

/-! ### Values -/

/-- The characters of a text. -/
def chars (v : Json) : List Char := v.text.toList

/-- The characters of a member. -/
def memberChars (entry : String × Json) : List Char :=
  (quote entry.1).toList ++ ':' :: entry.2.chars

theorem toList_textItems (items : List Json) :
    (textItems items).toList = parted chars items := by
  induction items with
  | nil => rfl
  | cons v rest ih =>
    cases rest with
    | nil => simp [textItems, parted, further, chars]
    | cons w rest =>
      rw [textItems, String.toList_append, String.toList_append, ih]
      · simp [parted, further, chars]
      · exact List.cons_ne_nil _ _

theorem toList_textEntries (entries : List (String × Json)) :
    (textEntries entries).toList = parted memberChars entries := by
  induction entries with
  | nil => rfl
  | cons entry rest ih =>
    obtain ⟨key, v⟩ := entry
    cases rest with
    | nil => simp [textEntries, parted, further, memberChars, chars]
    | cons w rest =>
      rw [textEntries, String.toList_append, String.toList_append, ih]
      · simp [parted, further, memberChars, chars]
      · exact List.cons_ne_nil _ _

theorem chars_arr (items : List Json) :
    (arr items).chars = '[' :: (parted chars items ++ [']']) := by
  rw [chars, text, String.toList_append, String.toList_append, toList_textItems]
  rfl

theorem chars_obj (entries : List (String × Json)) :
    (obj entries).chars = '\x7b' :: (parted memberChars entries ++ ['\x7d']) := by
  rw [chars, text, String.toList_append, String.toList_append, toList_textEntries]
  rfl

/-- The character that opens the text of a value; one stands for all numbers and one for both truth
values. -/
def opening : Json → Char
  | null => 'n'
  | bool _ => 't'
  | num _ => '0'
  | str _ => '"'
  | arr _ => '['
  | obj _ => '\x7b'

/-- What stands for a character that opens a text. -/
def openingOf (c : Char) : Char :=
  if c.isDigit ∨ c = '-' then '0' else if c = 'f' then 't' else c

theorem exists_chars_eq_cons (v : Json) :
    ∃ c rest, v.chars = c :: rest ∧ openingOf c = v.opening := by
  cases v with
  | null => exact ⟨'n', _, rfl, rfl⟩
  | bool b => cases b <;> exact ⟨_, _, rfl, rfl⟩
  | num n =>
    obtain ⟨negative, body, htext, hbody⟩ := n.exists_toList_text
    obtain ⟨c, rest, rfl, hc⟩ := hbody.head
    cases negative with
    | true => exact ⟨'-', _, htext, rfl⟩
    | false => exact ⟨c, rest, htext, if_pos (Or.inl hc)⟩
  | str s => exact ⟨'"', _, toList_quote s, rfl⟩
  | arr items => exact ⟨'[', _, chars_arr items, rfl⟩
  | obj entries => exact ⟨'\x7b', _, chars_obj entries, rfl⟩

/-- Values of one text are of one kind. -/
theorem opening_eq_of_append_eq {a b : Json} {rest more : List Char}
    (h : a.chars ++ rest = b.chars ++ more) : a.opening = b.opening := by
  obtain ⟨c, _, hc, hopena⟩ := exists_chars_eq_cons a
  obtain ⟨d, _, hd, hopenb⟩ := exists_chars_eq_cons b
  rw [hc, hd] at h
  rw [← hopena, ← hopenb, (List.cons.inj h).1]

theorem chars_append_ne {c : Char} (hc : ∀ v : Json, v.opening ≠ openingOf c) (v : Json)
    (rest more : List Char) : v.chars ++ rest ≠ c :: more := by
  intro h
  obtain ⟨d, _, hd, hopen⟩ := exists_chars_eq_cons v
  rw [hd] at h
  exact hc v (by rw [← hopen, (List.cons.inj h).1])

theorem told_scalar {v : Json} (hobj : v.isObj = false) (harr : v.isArr = false) :
    Told chars v := by
  intro w rest more hrest hmore h
  have hopen := opening_eq_of_append_eq h
  cases v with
  | null =>
    cases w with
    | null => exact ⟨rfl, List.append_cancel_left h⟩
    | _ => simp [opening] at hopen
  | bool a =>
    cases w with
    | bool b =>
      cases a <;> cases b
      · exact ⟨rfl, List.append_cancel_left h⟩
      · exact absurd (List.cons.inj h).1 (by decide)
      · exact absurd (List.cons.inj h).1 (by decide)
      · exact ⟨rfl, List.append_cancel_left h⟩
    | _ => simp [opening] at hopen
  | num m =>
    cases w with
    | num n =>
      obtain ⟨htext, hrest⟩ := Decimal.append_inj_of_stops
        (fun _ => Number.isNumeric_of_mem_text) (fun _ => Number.isNumeric_of_mem_text) hrest hmore h
      rw [Number.text_injective (String.toList_inj.1 htext)]
      exact ⟨rfl, hrest⟩
    | _ => simp [opening] at hopen
  | str s =>
    cases w with
    | str t =>
      obtain ⟨rfl, hrest⟩ := quote_append_inj h
      exact ⟨rfl, hrest⟩
    | _ => simp [opening] at hopen
  | arr items => cases harr
  | obj entries => cases hobj

theorem told_arr {items : List Json} (hitems : ∀ v ∈ items, Told chars v) :
    Told chars (.arr items) := by
  intro w rest more hrest hmore h
  have hopen := opening_eq_of_append_eq h
  cases w with
  | arr others =>
    have hclose : ∀ v : Json, v.opening ≠ openingOf ']' := by
      intro v
      cases v <;> simp [opening, openingOf]
    rw [chars_arr, chars_arr] at h
    obtain ⟨rfl, hrest⟩ :=
      enclosed_inj (by decide) (by decide) (chars_append_ne hclose) hitems h
    exact ⟨rfl, hrest⟩
  | _ => simp [opening] at hopen

theorem told_member {entry : String × Json} (h : Told chars entry.2) : Told memberChars entry := by
  obtain ⟨key, v⟩ := entry
  rintro ⟨key', w⟩ rest more hrest hmore heq
  simp only [memberChars, List.append_assoc, List.cons_append] at heq
  obtain ⟨rfl, htail⟩ := quote_append_inj heq
  obtain ⟨rfl, hrest⟩ := h w rest more hrest hmore (List.cons.inj htail).2
  exact ⟨rfl, hrest⟩

theorem told_obj {entries : List (String × Json)} (hentries : ∀ e ∈ entries, Told chars e.2) :
    Told chars (.obj entries) := by
  intro w rest more hrest hmore h
  have hopen := opening_eq_of_append_eq h
  cases w with
  | obj others =>
    have hkey : ∀ (entry : String × Json) (rest more : List Char),
        memberChars entry ++ rest ≠ '\x7d' :: more := by
      intro entry rest more heq
      rw [memberChars, toList_quote] at heq
      exact absurd (List.cons.inj heq).1 (by decide)
    rw [chars_obj, chars_obj] at h
    obtain ⟨rfl, hrest⟩ := enclosed_inj (by decide) (by decide) hkey
      (fun e he => told_member (hentries e he)) h
    exact ⟨rfl, hrest⟩
  | _ => simp [opening] at hopen

/-- Every value is told from the front of a text: a scalar by its own end, an array and an object by
its parts and its closing bracket. -/
theorem told (v : Json) : Told chars v := by
  induction v using induct with
  | scalar v hobj harr => exact told_scalar hobj harr
  | arr items ih => exact told_arr ih
  | obj entries ih => exact told_obj ih

/-- Different values have different texts. -/
theorem text_injective {a b : Json} (h : a.text = b.text) : a = b := by
  have hchars : a.chars ++ [] = b.chars ++ [] := by rw [chars, chars, h]
  have hend : Stops IsNumeric [] := by simp [Stops]
  exact (told a b [] [] hend hend hchars).1

end Json
end SchemaForm
