import SchemaForm.Json.Basic
import SchemaForm.Pointer

/-!
# Reading and writing by pointer

Data may be absent: `none` is no value at all, `some .null` is the value `null`. A write creates
the objects it passes through and appends to an array at most one element; a removal keeps the
order of what stays.
-/

namespace SchemaForm.Json

/-- The member or element that one segment selects. -/
def child? (segment : String) : Json → Option Json
  | .obj entries => Entries.get? segment entries
  | .arr items => (Pointer.index? segment).bind fun i => items[i]?
  | _ => none

/-- The value that segments select. -/
def atSegments? (data : Option Json) : List String → Option Json
  | [] => data
  | segment :: rest => atSegments? (data.bind (child? segment)) rest

/-- Writes a value at segments below a current value. `pointer` is named in errors. -/
def setSegments (pointer : String) (value : Json) : List String → Json → Except PathError Json
  | [], _ => .ok value
  | segment :: rest, .arr items =>
    match Pointer.index? segment with
    | none => .error (.invalidArrayIndex pointer segment)
    | some i =>
      if i < items.length then do
        let child ← setSegments pointer value rest (items[i]?.getD .null)
        return .arr (items.set i child)
      else if i = items.length then do
        let child ← setSegments pointer value rest .null
        return .arr (items ++ [child])
      else
        .error (.invalidArrayIndex pointer segment)
  | segment :: rest, .obj entries => do
    let child ← setSegments pointer value rest ((Entries.get? segment entries).getD .null)
    return .obj (Entries.insert segment child entries)
  | segment :: rest, _ => do
    let child ← setSegments pointer value rest .null
    return .obj [(segment, child)]

/-- Removes the entry that segments select, if there is one. -/
def eraseSegments : List String → Json → Json
  | [], v => v
  | [segment], .obj entries => .obj (Entries.erase segment entries)
  | segment :: rest, .obj entries =>
    match Entries.get? segment entries with
    | some child => .obj (Entries.insert segment (eraseSegments rest child) entries)
    | none => .obj entries
  | segment :: rest, .arr items =>
    match Pointer.index? segment with
    | none => .arr items
    | some i =>
      match items[i]? with
      | none => .arr items
      | some child =>
        if rest.isEmpty then .arr (items.eraseIdx i)
        else .arr (items.set i (eraseSegments rest child))
  | _ :: _, v => v

/-- The value at a pointer. -/
def getAt (data : Option Json) (pointer : String) : Except PathError (Option Json) := do
  return atSegments? data (← Pointer.parse pointer)

/-- The document with a value written at a pointer. At the root the value is the document. -/
def setAt (data : Option Json) (pointer : String) (value : Json) : Except PathError Json := do
  setSegments pointer value (← Pointer.parse pointer) (data.getD .null)

/-- The document without the entry at a pointer. Nothing is left when the root is removed. -/
def eraseAt (data : Option Json) (pointer : String) : Except PathError (Option Json) := do
  match ← Pointer.parse pointer with
  | [] => return none
  | segments => return data.map (eraseSegments segments)

end SchemaForm.Json
