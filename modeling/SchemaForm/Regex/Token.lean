import SchemaForm.Regex.Basic

/-!
# The tokens of a regular expression

Cuts the text of an expression into tokens. A bracketed class is one token; an escape is the
character, the class or the assertion it names. A text with a malformed class, escape, counter or
group opening has no tokens.
-/

namespace SchemaForm.Regex

/-- What a dialect allows and how it reads the classes `\d`, `\w` and `\s`. -/
structure Dialect where
  lookaround : Bool
  digits : CharSet
  words : CharSet
  blanks : CharSet

/-- Classes by Unicode property, and no look-around. -/
def Dialect.unicode : Dialect where
  lookaround := false
  digits := .property Text.digitRanges
  words := wordSet
  blanks := .property Text.blankRanges

/-- Switches that change how the following tokens are read. -/
structure Flags where
  ignoreCase : Bool := false
  multiLine : Bool := false
  dotAll : Bool := false

/-- What an opening parenthesis starts. -/
inductive Group where
  | plain
  | named (name : String)
  | withFlags (switches : List (Char × Bool))
  | look (ahead holds : Bool)

/-- A token. -/
inductive Token where
  | chars (set : CharSet)
  | dot
  | caret
  | dollar
  | assertion (r : Regex)
  | openGroup (group : Group)
  | closeGroup
  | bar
  | quantifier (least : Nat) (most : Option Nat)
  | flags (switches : List (Char × Bool))

/-- What an escape stands for. -/
inductive Escape where
  | literal (c : Char)
  | chars (set : CharSet)
  | assertion (r : Regex)

namespace Token

/-- The value of a run of hexadecimal digits. -/
def hexValue? (digits : List Char) : Option Nat :=
  if digits.isEmpty then none
  else digits.foldl (fun acc c => do
    let n ← acc
    if c.isDigit then return n * 16 + (c.toNat - '0'.toNat)
    else if 'a' ≤ c ∧ c ≤ 'f' then return n * 16 + (c.toNat - 'a'.toNat + 10)
    else if 'A' ≤ c ∧ c ≤ 'F' then return n * 16 + (c.toNat - 'A'.toNat + 10)
    else none) (some 0)

/-- The character with a code point, if it is one. -/
def charOf? (code : Nat) : Option Char := if code.isValidChar then some (Char.ofNat code) else none

/-- A code point in hexadecimal: in braces, or of a fixed number of digits. -/
def hex? (width : Nat) : List Char → Option (Char × List Char)
  | '\x7b' :: rest =>
    match rest.dropWhile (· != '\x7d') with
    | _ :: after => do
      let code ← hexValue? (rest.takeWhile (· != '\x7d'))
      return (← charOf? code, after)
    | [] => none
  | cs =>
    if cs.length < width then none
    else do
      let code ← hexValue? (cs.take width)
      return (← charOf? code, cs.drop width)

/-- The name of a property in lower case without separators. -/
def propertyName (name : List Char) : String :=
  String.ofList ((name.filter fun c => !(c == ' ' || c == '_' || c == '-')).map Char.toLower)

/-- The characters with a named property. -/
def property? (name : List Char) : Option CharSet :=
  match propertyName name with
  | "l" | "letter" => some (.property Text.letterRanges)
  | "lu" | "uppercaseletter" => some (.property Text.upperRanges)
  | "ll" | "lowercaseletter" => some (.property Text.lowerRanges)
  | "nd" | "decimalnumber" | "digit" => some (.property Text.digitRanges)
  | "whitespace" | "space" => some (.property Text.blankRanges)
  | "any" => some .all
  | _ => none

/-- A set or its complement. -/
def complementIf (negated : Bool) (set : CharSet) : CharSet := if negated then .not set else set

/-- A property behind `\p`: one letter, or a name in braces, where a caret negates. -/
def propertyEscape? (negated : Bool) : List Char → Option (CharSet × List Char)
  | '\x7b' :: rest =>
    match rest.dropWhile (· != '\x7d') with
    | _ :: after =>
      match rest.takeWhile (· != '\x7d') with
      | '^' :: name => (property? name).map fun set => (complementIf (!negated) set, after)
      | name => (property? name).map fun set => (complementIf negated set, after)
    | [] => none
  | c :: rest => (property? [c]).map fun set => (complementIf negated set, rest)
  | [] => none

/-- The character stands for itself behind a backslash. -/
def isPunctuation (c : Char) : Bool :=
  c.toNat < 0x80 && !c.isAlphanum && c != '<' && c != '>'

/-- The escape behind a backslash. -/
def escape? (dialect : Dialect) : List Char → Option (Escape × List Char)
  | [] => none
  | c :: rest =>
    if isPunctuation c then some (.literal c, rest)
    else match c with
      | 'd' => some (.chars dialect.digits, rest)
      | 'D' => some (.chars (.not dialect.digits), rest)
      | 'w' => some (.chars dialect.words, rest)
      | 'W' => some (.chars (.not dialect.words), rest)
      | 's' => some (.chars dialect.blanks, rest)
      | 'S' => some (.chars (.not dialect.blanks), rest)
      | 'p' => (propertyEscape? false rest).map fun (set, rest) => (.chars set, rest)
      | 'P' => (propertyEscape? true rest).map fun (set, rest) => (.chars set, rest)
      | 'a' => some (.literal '\x07', rest)
      | 'f' => some (.literal '\x0c', rest)
      | 't' => some (.literal '\t', rest)
      | 'n' => some (.literal '\n', rest)
      | 'r' => some (.literal '\r', rest)
      | 'v' => some (.literal '\x0b', rest)
      | 'A' => some (.assertion .textStart, rest)
      | 'z' => some (.assertion .textEnd, rest)
      | 'b' => some (.assertion .wordBoundary, rest)
      | 'B' => some (.assertion .notWordBoundary, rest)
      | 'x' => (hex? 2 rest).map fun (c, rest) => (.literal c, rest)
      | 'u' => (hex? 4 rest).map fun (c, rest) => (.literal c, rest)
      | 'U' => (hex? 8 rest).map fun (c, rest) => (.literal c, rest)
      | _ => none

/-- One member of a class: a character or a set. -/
def classItem? (dialect : Dialect) : List Char → Option (Escape × List Char)
  | '\\' :: rest =>
    match escape? dialect rest with
    | some (.assertion _, _) => none
    | found => found
  | c :: rest => some (.literal c, rest)
  | [] => none

/-- The set that a class member stands for. -/
def itemSet : Escape → CharSet
  | .literal c => .single c
  | .chars set => set
  | .assertion _ => .none

/-- A member of a class, or a range of characters. A hyphen before the end or before another
hyphen makes no range. -/
def classRange? (dialect : Dialect) (cs : List Char) : Option (CharSet × List Char) := do
  let (item, rest) ← classItem? dialect cs
  match rest with
  | '-' :: ']' :: _ => return (itemSet item, rest)
  | '-' :: '-' :: _ => return (itemSet item, rest)
  | '-' :: more =>
    let (last, after) ← classItem? dialect more
    match item, last with
    | .literal first, .literal last =>
      if first ≤ last then return (.range first last, after) else none
    | _, _ => none
  | _ => return (itemSet item, rest)

/-- The characters of a bracketed ASCII class such as `[:alpha:]`. -/
def asciiClass? (name : String) : Option CharSet :=
  let lower := CharSet.range 'a' 'z'
  let upper := CharSet.range 'A' 'Z'
  let digit := CharSet.range '0' '9'
  match name with
  | "alnum" => some (.or digit (.or lower upper))
  | "alpha" => some (.or lower upper)
  | "ascii" => some (.range '\x00' '\x7f')
  | "blank" => some (.or (.single '\t') (.single ' '))
  | "cntrl" => some (.or (.range '\x00' '\x1f') (.single '\x7f'))
  | "digit" => some digit
  | "graph" => some (.range '!' '~')
  | "lower" => some lower
  | "print" => some (.range ' ' '~')
  | "punct" =>
    some (.and (.range '!' '~') (.not (.or digit (.or lower upper))))
  | "space" => some (.or (.range '\t' '\r') (.single ' '))
  | "upper" => some upper
  | "word" => some (.or digit (.or lower (.or upper (.single '_'))))
  | "xdigit" => some (.or digit (.or (.range 'a' 'f') (.range 'A' 'F')))
  | _ => none

/-- An ASCII class behind the opening bracket of a member. -/
def posixClass? : List Char → Option (CharSet × List Char)
  | ':' :: rest =>
    let (negated, body) := match rest with
      | '^' :: body => (true, body)
      | body => (false, body)
    match body.dropWhile Char.isAlpha with
    | ':' :: ']' :: after =>
      (asciiClass? (String.ofList (body.takeWhile Char.isAlpha))).map
        fun set => (complementIf negated set, after)
    | _ => none
  | _ => none

/-- The operations between the parts of a class. -/
inductive ClassOp where
  | both
  | minus
  | either

/-- The left part of a class joined with the part behind it. -/
def ClassOp.join (pending : Option (CharSet × ClassOp)) (right : CharSet) : CharSet :=
  match pending with
  | none => right
  | some (left, .both) => .and left right
  | some (left, .minus) => .and left (.not right)
  | some (left, .either) => .or (.and left (.not right)) (.and right (.not left))

/-- Literal hyphens at the front of a class. -/
def leadingHyphens : List Char → CharSet × List Char
  | '-' :: rest => (.single '-', (leadingHyphens rest).2)
  | cs => (.none, cs)

/-- The start of a class behind its bracket: whether it is negated, the members that stand first
and are literal there, and the rest. -/
def classStart (cs : List Char) : Bool × CharSet × List Char :=
  let (negated, cs) := match cs with
    | '^' :: rest => (true, rest)
    | cs => (false, cs)
  match leadingHyphens cs with
  | (.not .all, ']' :: rest) => (negated, .single ']', rest)
  | (set, rest) => (negated, set, rest)

/-- The members of a class up to its closing bracket. The fuel bounds the members and the nested
classes, each of which takes at least one character. -/
def classBody? (dialect : Dialect) :
    Nat → Bool → Option (CharSet × ClassOp) → CharSet → List Char → Option (CharSet × List Char)
  | 0, _, _, _, _ => none
  | _ + 1, _, _, _, [] => none
  | _ + 1, negated, pending, acc, ']' :: rest =>
    some (complementIf negated (ClassOp.join pending acc), rest)
  | fuel + 1, negated, pending, acc, '&' :: '&' :: rest =>
    classBody? dialect fuel negated (some (ClassOp.join pending acc, .both)) .none rest
  | fuel + 1, negated, pending, acc, '-' :: '-' :: rest =>
    classBody? dialect fuel negated (some (ClassOp.join pending acc, .minus)) .none rest
  | fuel + 1, negated, pending, acc, '~' :: '~' :: rest =>
    classBody? dialect fuel negated (some (ClassOp.join pending acc, .either)) .none rest
  | fuel + 1, negated, pending, acc, '[' :: rest =>
    match posixClass? rest with
    | some (set, after) => classBody? dialect fuel negated pending (.or acc set) after
    | none =>
      let (innerNegated, first, body) := classStart rest
      match classBody? dialect fuel innerNegated none first body with
      | some (set, after) => classBody? dialect fuel negated pending (.or acc set) after
      | none => none
  | fuel + 1, negated, pending, acc, cs =>
    match classRange? dialect cs with
    | some (set, rest) => classBody? dialect fuel negated pending (.or acc set) rest
    | none => none

/-- A class behind its opening bracket. -/
def class? (dialect : Dialect) (cs : List Char) : Option (CharSet × List Char) :=
  let (negated, first, body) := classStart cs
  classBody? dialect (body.length + 1) negated none first body

/-- A white space character inside a counter. -/
def skipBlanks (cs : List Char) : List Char := Text.trimLeft cs

/-- The largest count of a counter. -/
def maxCount : Nat := Nat.pow 2 32 - 1

/-- A decimal count with blanks around it. -/
def count? (cs : List Char) : Option (Nat × List Char) :=
  let cs := skipBlanks cs
  let digits := cs.takeWhile Char.isDigit
  let n := digits.foldl (fun n c => n * 10 + (c.toNat - '0'.toNat)) 0
  if digits.isEmpty || maxCount < n then none
  else some (n, skipBlanks (cs.dropWhile Char.isDigit))

/-- The end of a counter: a closing brace. -/
def closeCounter? (least : Nat) (most : Option Nat) : List Char → Option (Token × List Char)
  | '\x7d' :: rest =>
    if most.all (least ≤ ·) then some (.quantifier least most, rest) else none
  | _ => none

/-- A counter behind its opening brace. -/
def counter? (cs : List Char) : Option (Token × List Char) :=
  match skipBlanks cs with
  | ',' :: rest => do
    let (most, rest) ← count? rest
    closeCounter? 0 (some most) rest
  | cs => do
    let (least, rest) ← count? cs
    match rest with
    | ',' :: rest =>
      match skipBlanks rest with
      | '\x7d' :: rest => return (.quantifier least none, rest)
      | rest =>
        let (most, rest) ← count? rest
        closeCounter? least (some most) rest
    | rest => closeCounter? least (some least) rest

/-- Drops the mark of a reluctant quantifier, which changes no yes or no answer. -/
def skipReluctant : List Char → List Char
  | '?' :: rest => rest
  | cs => cs

/-- A character of a group name. -/
def isNameChar (c : Char) : Bool :=
  c.isAlpha || c == '_' || c.isDigit || c == '.' || c == '[' || c == ']' ||
    (0x80 ≤ c.toNat && wordSet.contains c)

/-- A group name up to its closing angle bracket. -/
def groupName? (cs : List Char) : Option (Token × List Char) :=
  match cs.dropWhile (· != '>') with
  | _ :: after =>
    match cs.takeWhile (· != '>') with
    | [] => none
    | first :: more =>
      if (first.isAlpha || first == '_' || 0x80 ≤ first.toNat) &&
          (first :: more).all isNameChar then
        some (.openGroup (.named (String.ofList (first :: more))), after)
      else none
  | [] => none

/-- The switches up to a closing parenthesis or a colon. -/
def switches? : List Char → Bool → List (Char × Bool) → Option (List (Char × Bool) × List Char)
  | [], _, _ => none
  | c :: rest, on, found =>
    if c = ')' ∨ c = ':' then some (found.reverse, c :: rest)
    else if c = '-' then
      match rest with
      | next :: _ => if on && next != ')' && next != ':' then switches? rest false found else none
      | [] => none
    else if ['i', 'm', 's', 'u', 'U', 'R', 'x'].contains c && !found.any (·.1 == c) then
      switches? rest on ((c, on) :: found)
    else none

/-- A group behind `(?`. -/
def group? (dialect : Dialect) : List Char → Option (Token × List Char)
  | '=' :: rest => if dialect.lookaround then some (.openGroup (.look true true), rest) else none
  | '!' :: rest => if dialect.lookaround then some (.openGroup (.look true false), rest) else none
  | '<' :: '=' :: rest =>
    if dialect.lookaround then some (.openGroup (.look false true), rest) else none
  | '<' :: '!' :: rest =>
    if dialect.lookaround then some (.openGroup (.look false false), rest) else none
  | 'P' :: '<' :: rest => groupName? rest
  | '<' :: rest => groupName? rest
  | cs =>
    match switches? cs true [] with
    | some (switches, ':' :: rest) => some (.openGroup (.withFlags switches), rest)
    | some ([], _) => none
    | some (switches, _ :: rest) => some (.flags switches, rest)
    | _ => none

/-- The token at the front of a text. -/
def next? (dialect : Dialect) : List Char → Option (Token × List Char)
  | [] => none
  | '(' :: '?' :: rest => group? dialect rest
  | '(' :: rest => some (.openGroup .plain, rest)
  | ')' :: rest => some (.closeGroup, rest)
  | '|' :: rest => some (.bar, rest)
  | '.' :: rest => some (.dot, rest)
  | '^' :: rest => some (.caret, rest)
  | '$' :: rest => some (.dollar, rest)
  | '*' :: rest => some (.quantifier 0 none, skipReluctant rest)
  | '+' :: rest => some (.quantifier 1 none, skipReluctant rest)
  | '?' :: rest => some (.quantifier 0 (some 1), skipReluctant rest)
  | '\x7b' :: rest => (counter? rest).map fun (token, rest) => (token, skipReluctant rest)
  | '[' :: rest => (class? dialect rest).map fun (set, rest) => (.chars set, rest)
  | '\\' :: rest =>
    match escape? dialect rest with
    | some (.literal c, rest) => some (.chars (.single c), rest)
    | some (.chars set, rest) => some (.chars set, rest)
    | some (.assertion r, rest) => some (.assertion r, rest)
    | none => none
  | c :: rest => some (.chars (.single c), rest)

/-- The tokens of a text. -/
def list? (dialect : Dialect) (cs : List Char) : Option (List Token) :=
  if cs.isEmpty then
    some []
  else
    match next? dialect cs with
    | none => none
    | some (token, rest) =>
      if rest.length < cs.length then (list? dialect rest).map (token :: ·) else none
termination_by cs.length

end Token
end SchemaForm.Regex
