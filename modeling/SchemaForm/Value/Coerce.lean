import SchemaForm.Json.Printer
import SchemaForm.Json.Parser
import SchemaForm.Schema.Type
import SchemaForm.Text.CharRanges

/-!
# Coercion

Turns what was typed into an input field into a value of the type that the field wants. A value
that cannot be turned stays as it is, and `null` always does. Results that are whole and smaller
than `2^63` are integers. `Value.coerceBy` leaves open how a double becomes an integer.
-/

namespace SchemaForm.Value

/-- The first whole double that no signed integer of 64 bits reaches: the greatest of them,
rounded. -/
def intLimit : Binary64 := Binary64.ofInt Binary64.maxInt64

/-- Splits a sign off the front of a text. -/
def splitSign : List Char → Bool × List Char
  | '-' :: rest => (true, rest)
  | '+' :: rest => (false, rest)
  | cs => (false, cs)

/-- Digits with an optional point among or around them: the digits on either side and the rest.
At least one digit has to be there. -/
def decimalDigits? (cs : List Char) : Option (List Nat × List Nat × List Char) :=
  let (whole, rest) := Json.Parser.spanDigits cs
  let (fraction, rest) := match rest with
    | '.' :: rest => Json.Parser.spanDigits rest
    | rest => ([], rest)
  if whole.isEmpty && fraction.isEmpty then none else some (whole, fraction, rest)

/-- The double that a text stands for: a sign, digits with an optional point, and an exponent.
Everything else, infinities and overflow are none. -/
def readDouble? (cs : List Char) : Option Binary64 := do
  let (negative, rest) := splitSign cs
  let (whole, fraction, rest) ← decimalDigits? rest
  let (exponent, rest) ← Json.Parser.exponent? rest
  if rest.isEmpty then
    Binary64.ofDecimal? negative (NumberLiteral.digitsValue (whole ++ fraction))
      (exponent.getD 0 - fraction.length)
  else
    none

/-- The greatest magnitude of which an integer is read. -/
def maxDigitsValue : Nat := Nat.pow 2 63 - 1

/-- The integer at the front of a text, behind white space; what follows its digits is ignored. -/
def readInteger? (s : String) : Option Json :=
  let (negative, rest) := splitSign (Text.trimLeft s.toList)
  let digits := (Json.Parser.spanDigits rest).1
  let magnitude := NumberLiteral.digitsValue digits
  if digits.isEmpty || maxDigitsValue < magnitude then none
  else some (.int (if negative then -(magnitude : Int) else magnitude))

/-- The truth value that a value stands for. -/
def truth? : Json → Option Bool
  | .str s => if s = "true" then some true else if s = "false" ∨ s = "" then some false else none
  | .num n =>
    if n.toBinary64.eq (Binary64.ofInt 1) then some true
    else if n.toBinary64.eq (Binary64.ofInt 0) then some false
    else none
  | .bool b => some b
  | _ => none

section

-- `toInt` makes an integer out of the integer part of a double.
variable (toInt : Binary64 → Int)

/-- The integer part of a double of moderate size. -/
def smallInt? (x : Binary64) : Option Json :=
  if x.abs.lt intLimit then some (.int (toInt x)) else none

/-- The number that a text stands for, without regard to white space around it; nothing but white
space is zero. -/
def readNumber? (s : String) : Option Json :=
  match Text.trim s.toList with
  | [] => some (.int 0)
  | cs => do
    let x ← readDouble? cs
    let whole := if x.isWhole then smallInt? toInt x else none
    return whole.getD (.num (.float x))

/-- The integer part of a number. -/
def truncate? : Number → Option Json
  | .int n => some (.int n)
  | .float x => smallInt? toInt x

/-- The value turned into a type, if it can be. -/
def coerceBy? : JsonType → Json → Option Json
  | .string, .str s => some (.str s)
  | .string, v => some (.str v.text)
  | .number, .str s => readNumber? toInt s
  | .integer, .str s => readInteger? s
  | .integer, .num n => truncate? toInt n
  | .boolean, v => (truth? v).map .bool
  | .null, _ => some .null
  | _, _ => none

/-- The value turned into a type, or as it is. -/
def coerceBy (type : JsonType) : Json → Json
  | .null => .null
  | v => (coerceBy? toInt type v).getD v

end

/-- The value turned into a type, or as it is, with integers of 64 bits. -/
def coerce (type : JsonType) (v : Json) : Json := coerceBy Binary64.toInt64 type v

end SchemaForm.Value
