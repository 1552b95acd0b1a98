import SchemaForm.Pointer

/-!
# Selections on the command line

A branch is pinned by `POINTER=INDEX`. The last equals sign divides the two, so that a pointer may
hold others; nothing before it means the root.
-/

namespace SchemaForm.Command

/-- Why a text pins no branch. -/
inductive SelectionError where
  | noIndex (text : String)
  | notPointer (path : String)
  | notIndex (index : String)
deriving DecidableEq

/-- The wording of the error. -/
def SelectionError.message : SelectionError → String
  | noIndex text => "expected POINTER=INDEX, got \"" ++ text ++ "\""
  | notPointer path => "\"" ++ path ++ "\" is not a JSON Pointer"
  | notIndex index => "\"" ++ index ++ "\" is not a branch index"

/-- The texts before and behind the last occurrence of a character. -/
def splitLast? (c : Char) : List Char → Option (List Char × List Char)
  | [] => none
  | d :: rest =>
    match splitLast? c rest with
    | some (before, behind) => some (d :: before, behind)
    | none => if d = c then some ([], rest) else none

/-- The text is empty or starts with a slash. -/
def looksLikePointer : List Char → Bool
  | [] => true
  | c :: _ => c == '/'

/-- The path and the branch that a text pins. -/
def parseSelection (text : String) : Except SelectionError (String × Nat) :=
  match splitLast? '=' text.toList with
  | none => .error (.noIndex text)
  | some (path, index) =>
    if !looksLikePointer path then
      .error (.notPointer (String.ofList path))
    else
      match Pointer.index? (String.ofList index) with
      | some i => .ok (String.ofList path, i)
      | none => .error (.notIndex (String.ofList index))

end SchemaForm.Command
