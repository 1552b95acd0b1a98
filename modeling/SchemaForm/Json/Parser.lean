import SchemaForm.Json.Literal
import SchemaForm.Json.Basic

/-!
# JSON text, read

A recursive descent over the characters of a text. Every step returns what is left of the text
with a proof that it is shorter, so the descent ends. Containers nest at most `maxDepth` deep, and
a repeated key keeps its first place and its last value.
-/

namespace SchemaForm.Json

namespace Parser

/-- The deepest nesting of arrays and objects that is read. -/
def maxDepth : Nat := 127

/-- A value read from the front of a text, and the shorter rest. -/
abbrev Step (α : Type) (cs : List Char) : Type :=
  Option { r : α × List Char // r.2.length < cs.length }

/-- A blank of JSON text. -/
def isBlank (c : Char) : Bool := c == ' ' || c == '\n' || c == '\t' || c == '\r'

/-- The text without its leading blanks. -/
def skipBlanks (cs : List Char) : List Char := cs.dropWhile isBlank

theorem length_skipBlanks_le (cs : List Char) : (skipBlanks cs).length ≤ cs.length := by
  simpa [skipBlanks] using (List.dropWhile_suffix isBlank (l := cs)).length_le

/-- The value of a decimal digit. -/
def digit? (c : Char) : Option Nat := if c.isDigit then some (c.toNat - '0'.toNat) else none

/-- The digits at the front of a text and the rest. -/
def spanDigits (cs : List Char) : List Nat × List Char :=
  (cs.takeWhile Char.isDigit |>.map fun c => c.toNat - '0'.toNat, cs.dropWhile Char.isDigit)

/-- The digits before the point: a zero stands alone. -/
def wholeDigits? (cs : List Char) : Option (List Nat × List Char) :=
  match spanDigits cs with
  | ([], _) => none
  | (0 :: _ :: _, _) => none
  | found => some found

/-- A point with at least one digit after it, or nothing. -/
def fraction? : List Char → Option (Option (List Nat) × List Char)
  | '.' :: rest =>
    match spanDigits rest with
    | ([], _) => none
    | (digits, rest) => some (some digits, rest)
  | cs => some (none, cs)

/-- The digits of an exponent behind its optional sign. -/
def exponentDigits? (negative : Bool) (cs : List Char) : Option (Option Int × List Char) :=
  match spanDigits cs with
  | ([], _) => none
  | (digits, rest) =>
    let value : Int := NumberLiteral.digitsValue digits
    some (some (if negative then -value else value), rest)

/-- An exponent, or nothing. -/
def exponent? : List Char → Option (Option Int × List Char)
  | c :: rest =>
    if c = 'e' ∨ c = 'E' then
      match rest with
      | '+' :: rest => exponentDigits? false rest
      | '-' :: rest => exponentDigits? true rest
      | rest => exponentDigits? false rest
    else
      some (none, c :: rest)
  | [] => some (none, [])

/-- A number behind its optional minus sign. -/
def unsigned? (negative : Bool) (cs : List Char) : Option (Number × List Char) := do
  let (whole, rest) ← wholeDigits? cs
  let (fraction, rest) ← fraction? rest
  let (exponent, rest) ← exponent? rest
  let number ← (NumberLiteral.mk negative whole fraction exponent).toNumber?
  return (number, rest)

/-- A number at the front of a text. -/
def number? : List Char → Option (Number × List Char)
  | '-' :: rest => unsigned? true rest
  | cs => unsigned? false cs

/-- The value of a hexadecimal digit in either case. -/
def hexValue? (c : Char) : Option Nat :=
  if c.isDigit then some (c.toNat - '0'.toNat)
  else if 'a' ≤ c ∧ c ≤ 'f' then some (c.toNat - 'a'.toNat + 10)
  else if 'A' ≤ c ∧ c ≤ 'F' then some (c.toNat - 'A'.toNat + 10)
  else none

/-- Four hexadecimal digits as a 16-bit unit. -/
def unit? (a b c d : Char) : Option Nat := do
  let a ← hexValue? a
  let b ← hexValue? b
  let c ← hexValue? c
  let d ← hexValue? d
  return ((a * 16 + b) * 16 + c) * 16 + d

/-- The unit opens a surrogate pair. -/
def isHighSurrogate (n : Nat) : Bool := 0xD800 ≤ n && n ≤ 0xDBFF

/-- The unit closes a surrogate pair. -/
def isLowSurrogate (n : Nat) : Bool := 0xDC00 ≤ n && n ≤ 0xDFFF

/-- The character behind a backslash, for the escapes of one letter. -/
def simpleEscape? : Char → Option Char
  | '"' => some '"'
  | '\\' => some '\\'
  | '/' => some '/'
  | 'b' => some '\x08'
  | 'f' => some '\x0c'
  | 'n' => some '\n'
  | 'r' => some '\r'
  | 't' => some '\t'
  | _ => none

/-- The rest of a quoted string, up to and including its closing quote. A surrogate stands only in
a pair. -/
def quoted? : List Char → Option (List Char × List Char)
  | [] => none
  | '"' :: rest => some ([], rest)
  | '\\' :: 'u' :: a :: b :: c :: d :: rest =>
    match unit? a b c d with
    | none => none
    | some high =>
      if isLowSurrogate high then none
      else if isHighSurrogate high then
        match rest with
        | '\\' :: 'u' :: a :: b :: c :: d :: rest =>
          match unit? a b c d with
          | none => none
          | some low =>
            if isLowSurrogate low then
              let code := 0x10000 + (high - 0xD800) * 0x400 + (low - 0xDC00)
              (quoted? rest).map fun (s, rest) => (Char.ofNat code :: s, rest)
            else none
        | _ => none
      else (quoted? rest).map fun (s, rest) => (Char.ofNat high :: s, rest)
  | '\\' :: c :: rest =>
    match simpleEscape? c with
    | none => none
    | some c => (quoted? rest).map fun (s, rest) => (c :: s, rest)
  | c :: rest =>
    if c.toNat < 0x20 ∨ c = '\\' then none
    else (quoted? rest).map fun (s, rest) => (c :: s, rest)

/-- Drops a fixed word from the front of a text. -/
def expect? : List Char → List Char → Option (List Char)
  | [], cs => some cs
  | _ :: _, [] => none
  | w :: word, c :: cs => if c = w then expect? word cs else none

/-- Keeps a step only if it consumed something. -/
def progress {α : Type} (cs : List Char) (found : Option (α × List Char)) : Step α cs :=
  match found with
  | none => none
  | some r => if h : r.2.length < cs.length then some ⟨r, h⟩ else none

/-- A scalar at the front of a text. -/
def scalar? (cs : List Char) : Option (Json × List Char) :=
  match cs with
  | 'n' :: rest => (expect? ['u', 'l', 'l'] rest).map (.null, ·)
  | 't' :: rest => (expect? ['r', 'u', 'e'] rest).map (.bool true, ·)
  | 'f' :: rest => (expect? ['a', 'l', 's', 'e'] rest).map (.bool false, ·)
  | '"' :: rest => (quoted? rest).map fun (s, rest) => (.str (String.ofList s), rest)
  | cs => (number? cs).map fun (n, rest) => (.num n, rest)

/-- A key and its colon at the front of a text. -/
def key? (cs : List Char) : Option (String × List Char) :=
  match skipBlanks cs with
  | '"' :: rest =>
    match quoted? rest with
    | none => none
    | some (key, rest) =>
      match skipBlanks rest with
      | ':' :: rest => some (String.ofList key, rest)
      | _ => none
  | _ => none

mutual

/-- A value at the front of a text, after blanks, with `depth` levels of nesting left. -/
def value? (depth : Nat) (cs : List Char) : Step Json cs :=
  match h : skipBlanks cs with
  | '[' :: rest =>
    have hr : rest.length < cs.length := by
      have := length_skipBlanks_le cs; simp [h] at this; omega
    match depth with
    | 0 => none
    | depth + 1 =>
      match hb : skipBlanks rest with
      | ']' :: after =>
        some ⟨(.arr [], after), by
          have := length_skipBlanks_le rest; simp [hb] at this; simp; omega⟩
      | _ =>
        match items? depth rest with
        | none => none
        | some ⟨(items, after), ha⟩ => some ⟨(.arr items, after), by simp at ha ⊢; omega⟩
  | '\x7b' :: rest =>
    have hr : rest.length < cs.length := by
      have := length_skipBlanks_le cs; simp [h] at this; omega
    match depth with
    | 0 => none
    | depth + 1 =>
      match hb : skipBlanks rest with
      | '\x7d' :: after =>
        some ⟨(.obj [], after), by
          have := length_skipBlanks_le rest; simp [hb] at this; simp; omega⟩
      | _ =>
        match members? depth rest with
        | none => none
        | some ⟨(members, after), ha⟩ =>
          some ⟨(.obj (Entries.ofList members), after), by simp at ha ⊢; omega⟩
  | _ => progress cs (scalar? (skipBlanks cs))
termination_by (cs.length, 0)

/-- Elements up to the closing bracket; at least one. -/
def items? (depth : Nat) (cs : List Char) : Step (List Json) cs :=
  match value? depth cs with
  | none => none
  | some ⟨(v, rest), hv⟩ =>
    match h : skipBlanks rest with
    | ',' :: more =>
      have hm : more.length < cs.length := by
        have := length_skipBlanks_le rest; simp [h] at this; simp at hv; omega
      match items? depth more with
      | none => none
      | some ⟨(vs, after), ha⟩ => some ⟨(v :: vs, after), by simp at ha ⊢; omega⟩
    | ']' :: after =>
      some ⟨([v], after), by
        have := length_skipBlanks_le rest; simp [h] at this; simp at hv ⊢; omega⟩
    | _ => none
termination_by (cs.length, 1)

/-- Members up to the closing brace; at least one. -/
def members? (depth : Nat) (cs : List Char) : Step (List (String × Json)) cs :=
  match progress cs (key? cs) with
  | none => none
  | some ⟨(key, rest), hk⟩ =>
    match value? depth rest with
    | none => none
    | some ⟨(v, rest'), hv⟩ =>
      match h : skipBlanks rest' with
      | ',' :: more =>
        have hm : more.length < cs.length := by
          have := length_skipBlanks_le rest'; simp [h] at this; simp at hk hv; omega
        match members? depth more with
        | none => none
        | some ⟨(vs, after), ha⟩ => some ⟨((key, v) :: vs, after), by simp at ha ⊢; omega⟩
      | '\x7d' :: after =>
        some ⟨([(key, v)], after), by
          have := length_skipBlanks_le rest'; simp [h] at this; simp at hk hv ⊢; omega⟩
      | _ => none
termination_by (cs.length, 1)

end

end Parser

/-- The value of a whole text: one value with nothing but blanks around it. -/
def parse? (text : String) : Option Json :=
  match Parser.value? Parser.maxDepth text.toList with
  | some ⟨(v, rest), _⟩ => if (Parser.skipBlanks rest).isEmpty then some v else none
  | none => none

end SchemaForm.Json
