import SchemaForm.Json.Parser

/-!
# Loading documents

A document is the JSON value in a file. What a path leads to is given as a `FileContent`, so that
loading itself reads nothing.
-/

namespace SchemaForm

/-- What a path leads to. -/
inductive FileContent where
  | missing
  /-- Something that cannot be read, and the reason that the system gives. -/
  | unreadable (reason : String)
  | bytes (content : ByteArray)

/-- Why a document cannot be loaded. -/
inductive LoadError where
  | fileNotFound (path : String)
  | unreadable (path reason : String)
  | invalidJson
deriving DecidableEq

namespace LoadError

/-- The wording of the error. -/
def message : LoadError → String
  | fileNotFound path => "file not found: " ++ path
  | unreadable path reason => "cannot read " ++ path ++ ": " ++ reason
  | invalidJson => "invalid JSON"

/-- The exit code that reports the error. -/
def exitCode : LoadError → Nat
  | fileNotFound _ | unreadable _ _ => 3
  | invalidJson => 2

end LoadError

namespace Document

/-- The document that a text holds. Any JSON value is one. -/
def ofText (text : String) : Except LoadError Json :=
  match Json.parse? text with
  | some v => .ok v
  | none => .error .invalidJson

/-- The document in the file at a path. -/
def load (path : String) : FileContent → Except LoadError Json
  | .missing => .error (.fileNotFound path)
  | .unreadable reason => .error (.unreadable path reason)
  | .bytes content =>
    match String.fromUTF8? content with
    | some text => ofText text
    | none => .error (.unreadable path "stream did not contain valid UTF-8")

end Document
end SchemaForm
