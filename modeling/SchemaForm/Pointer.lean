/-!
# JSON pointers

A pointer addresses a place in a document by the segments from the root to it. Written out, every
segment follows a slash, with `~` as `~0` and a slash as `~1`; the root is the empty text, and a
lone slash is read as the root too. Parsing and building work on segments, `append`, `parent`,
`lastSegment?` and `isDescendant` directly on the written form.
-/

namespace SchemaForm

/-- Why a pointer cannot be followed. -/
inductive PathError where
  /-- The text is neither empty nor starts with a slash. -/
  | invalidPointer (pointer : String)
  /-- A segment addresses an array and is no index of an element or of the place after the last. -/
  | invalidArrayIndex (pointer segment : String)
deriving DecidableEq, Repr

/-- The wording of the error. -/
def PathError.message : PathError → String
  | .invalidPointer pointer =>
    "invalid JSON Pointer \"" ++ pointer ++ "\": must be empty or start with \"/\""
  | .invalidArrayIndex pointer segment =>
    "invalid array index \"" ++ segment ++ "\" in " ++ pointer

/-- The exit code that reports the error. -/
def PathError.exitCode : PathError → Nat := fun _ => 2

namespace Pointer

/-- One character of a segment as it is written. -/
def escapeChar (c : Char) : List Char :=
  if c = '~' then ['~', '0'] else if c = '/' then ['~', '1'] else [c]

/-- A segment as it is written. -/
def escape (segment : List Char) : List Char := segment.flatMap escapeChar

/-- Reads a written segment. A `~` that starts no escape stands for itself. -/
def unescape : List Char → List Char
  | '~' :: '1' :: rest => '/' :: unescape rest
  | '~' :: '0' :: rest => '~' :: unescape rest
  | c :: rest => c :: unescape rest
  | [] => []

/-- The texts between the slashes; always at least one. -/
def pieces : List Char → List (List Char)
  | [] => [[]]
  | c :: rest =>
    if c = '/' then
      [] :: pieces rest
    else
      match pieces rest with
      | [] => [[c]]
      | piece :: more => (c :: piece) :: more

/-- Reads a written segment into the text it names. -/
def decode (segment : List Char) : String := String.ofList (unescape segment)

/-- The segments of a pointer. -/
def parse (pointer : String) : Except PathError (List String) :=
  match pointer.toList with
  | [] => .ok []
  | ['/'] => .ok []
  | '/' :: rest => .ok ((pieces rest).map decode)
  | _ => .error (.invalidPointer pointer)

/-- The characters of the pointer with these segments. -/
def buildChars (segments : List String) : List Char :=
  segments.flatMap fun segment => '/' :: escape segment.toList

/-- The pointer with these segments. -/
def build (segments : List String) : String := String.ofList (buildChars segments)

/-- A pointer with one more segment at its end. -/
def append (base segment : String) : String :=
  base ++ String.ofList ('/' :: escape segment.toList)

/-- A pointer with the number of an array element at its end. -/
def appendIndex (base : String) (index : Nat) : String := append base (toString index)

/-- The pointer without its last segment; the root is its own parent. -/
def parent (pointer : String) : Except PathError String := do
  return build (← parse pointer).dropLast

/-- The text after the last slash, as the segment it names. -/
def lastSegment? (pointer : String) : Option String :=
  match pieces pointer.toList with
  | _ :: next :: more => some (decode ((next :: more).getLast (by simp)))
  | _ => none

/-- What follows `front` in `text`, if `text` starts with it. -/
def after? : List Char → List Char → Option (List Char)
  | [], text => some text
  | _ :: _, [] => none
  | c :: front, d :: text => if c = d then after? front text else none

/-- The candidate lies strictly below the ancestor: it continues with a slash. Everything but the
root lies below the root. -/
def isDescendant (ancestor candidate : String) : Bool :=
  if ancestor.isEmpty then
    !candidate.isEmpty
  else
    match after? ancestor.toList candidate.toList with
    | some (c :: _) => c == '/'
    | _ => false

/-- The largest number that a segment can give as an index. -/
def maxIndex : Nat := Nat.pow 2 64 - 1

/-- The digits behind an optional plus sign. -/
def unsignedDigits : List Char → List Char
  | '+' :: digits => digits
  | digits => digits

/-- The array index that a segment names: decimal digits behind at most one plus sign. -/
def index? (segment : String) : Option Nat :=
  let digits := unsignedDigits segment.toList
  if !digits.isEmpty && digits.all Char.isDigit then
    let index := digits.foldl (fun n c => n * 10 + (c.toNat - '0'.toNat)) 0
    if index ≤ maxIndex then some index else none
  else
    none

end Pointer
end SchemaForm
