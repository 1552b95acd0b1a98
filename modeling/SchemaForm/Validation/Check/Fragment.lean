import SchemaForm.Json.Update
import SchemaForm.Regex.Token
import SchemaForm.Schema.Location

/-!
# References into a document

A reference that starts with `#` names a place in its own document: the document itself, the value
at a pointer, or the schema with an anchor. Behind the `#` stand URI characters; others are written
as percent escapes of their UTF-8 bytes.
-/

namespace SchemaForm.Schema

/-- The character may stand in the fragment of a URI as it is. -/
def isFragmentChar (c : Char) : Bool :=
  c.isAlphanum || "-._~!$&'()*+,;=:@/?".toList.contains c

/-- The bytes that a fragment stands for. A stray character or a broken escape refuses it. -/
def fragmentBytes? : List Char → Option (List UInt8)
  | [] => some []
  | '%' :: high :: low :: rest => do
    let byte ← Regex.Token.hexValue? [high, low]
    return byte.toUInt8 :: (← fragmentBytes? rest)
  | c :: rest => do
    if isFragmentChar c then return c.toNat.toUInt8 :: (← fragmentBytes? rest) else none

/-- The text that a fragment stands for. -/
def fragmentText? (fragment : List Char) : Option String := do
  String.fromUTF8? ⟨(← fragmentBytes? fragment).toArray⟩

/-- The schema that carries an anchor. -/
def anchored? (document : Json) (anchor : String) : Option Json :=
  let carries := fun keyword : String => fun visit : String × Json =>
    (visit.2.get? keyword).any (Json.identical (.str anchor))
  let visits := traverse document
  ((visits.find? (carries "$anchor")).orElse fun _ => visits.find? (carries "$dynamicAnchor")).map
    Prod.snd

/-- The value in a document that a reference names. -/
def target? (document : Json) (reference : String) : Option Json :=
  match reference.toList with
  | ['#'] => some document
  | '#' :: '/' :: fragment => do
    let pointer ← fragmentText? fragment
    Json.atSegments? (some document) ((Pointer.pieces pointer.toList).map Pointer.decode)
  | '#' :: fragment => do anchored? document (← fragmentText? fragment)
  | _ => none

end SchemaForm.Schema
