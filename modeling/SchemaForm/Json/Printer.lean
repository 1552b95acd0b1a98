import SchemaForm.Json.Basic

/-!
# JSON text, written

`Json.text` is the compact form without blanks, `Json.pretty` the indented one. Inside strings only
the quote, the backslash and the control characters below U+0020 are escaped.
-/

namespace SchemaForm.Json

/-- One hexadecimal digit in lower case. -/
def hexDigit (n : Nat) : Char := Nat.digitChar (n % 16)

/-- A character as it stands inside a quoted string. -/
def escapeChar (c : Char) : List Char :=
  if c = '"' then ['\\', '"']
  else if c = '\\' then ['\\', '\\']
  else if c = '\x08' then ['\\', 'b']
  else if c = '\t' then ['\\', 't']
  else if c = '\n' then ['\\', 'n']
  else if c = '\x0c' then ['\\', 'f']
  else if c = '\r' then ['\\', 'r']
  else if c.toNat < 0x20 then
    ['\\', 'u', '0', '0', hexDigit (c.toNat / 16), hexDigit c.toNat]
  else [c]

/-- A string in quotes. -/
def quote (s : String) : String :=
  String.ofList ('"' :: s.toList.flatMap escapeChar ++ ['"'])

mutual

/-- The compact text of a value. -/
def text : Json → String
  | .null => "null"
  | .bool true => "true"
  | .bool false => "false"
  | .num n => n.text
  | .str s => quote s
  | .arr items => "[" ++ textItems items ++ "]"
  | .obj entries => "\x7b" ++ textEntries entries ++ "\x7d"

/-- Elements with commas between them. -/
def textItems : List Json → String
  | [] => ""
  | [v] => v.text
  | v :: rest => v.text ++ "," ++ textItems rest

/-- Members with commas between them. -/
def textEntries : List (String × Json) → String
  | [] => ""
  | [(key, v)] => quote key ++ ":" ++ v.text
  | (key, v) :: rest => quote key ++ ":" ++ v.text ++ "," ++ textEntries rest

end

/-- A line break followed by two blanks per level. -/
def lineBreak (level : Nat) : String :=
  String.ofList ('\n' :: List.replicate (2 * level) ' ')

mutual

/-- The indented text of a value that starts at a level of nesting. -/
def prettyAt (level : Nat) : Json → String
  | .arr [] => "[]"
  | .obj [] => "\x7b\x7d"
  | .arr items => "[" ++ prettyItems (level + 1) items ++ lineBreak level ++ "]"
  | .obj entries => "\x7b" ++ prettyEntries (level + 1) entries ++ lineBreak level ++ "\x7d"
  | .null => "null"
  | .bool true => "true"
  | .bool false => "false"
  | .num n => n.text
  | .str s => quote s

/-- Elements on lines of their own. -/
def prettyItems (level : Nat) : List Json → String
  | [] => ""
  | [v] => lineBreak level ++ prettyAt level v
  | v :: rest => lineBreak level ++ prettyAt level v ++ "," ++ prettyItems level rest

/-- Members on lines of their own. -/
def prettyEntries (level : Nat) : List (String × Json) → String
  | [] => ""
  | [(key, v)] => lineBreak level ++ quote key ++ ": " ++ prettyAt level v
  | (key, v) :: rest =>
    lineBreak level ++ quote key ++ ": " ++ prettyAt level v ++ "," ++ prettyEntries level rest

end

/-- The text of a value with two blanks of indentation per level. -/
def pretty (v : Json) : String := prettyAt 0 v

end SchemaForm.Json
