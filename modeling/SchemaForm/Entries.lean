/-!
# Ordered entries

The members of a JSON object: a list of key and value pairs in the order of their first insertion.
Look-up takes the first entry of a key, and every operation here keeps the keys distinct if they
were. There are two removals: `erase` keeps the order of the rest, `swapErase` puts the last entry
into the hole.
-/

namespace SchemaForm

/-- Key and value pairs in insertion order. -/
abbrev Entries (α : Type) := List (String × α)

namespace Entries

variable {α β : Type}

/-- The value of a key. -/
def get? (key : String) : Entries α → Option α
  | [] => none
  | (k, v) :: rest => if k = key then some v else get? key rest

/-- The key has an entry. -/
def contains (key : String) (entries : Entries α) : Bool := (get? key entries).isSome

/-- The keys in order. -/
def keys (entries : Entries α) : List String := entries.map Prod.fst

/-- Writes a value: in the place of the key, or at the end when the key is new. -/
def insert (key : String) (value : α) : Entries α → Entries α
  | [] => [(key, value)]
  | (k, v) :: rest => if k = key then (key, value) :: rest else (k, v) :: insert key value rest

/-- Removes a key, and keeps the order of the rest. -/
def erase (key : String) (entries : Entries α) : Entries α :=
  entries.filter fun entry => entry.1 != key

/-- Removes several keys, and keeps the order of the rest. -/
def eraseAll (keys : List String) (entries : Entries α) : Entries α :=
  entries.filter fun entry => !keys.contains entry.1

/-- Removes a key, and moves the last entry into its place. -/
def swapErase (key : String) : Entries α → Entries α
  | [] => []
  | (k, v) :: rest =>
    if k = key then
      match rest.getLast? with
      | none => []
      | some last => last :: rest.dropLast
    else
      (k, v) :: swapErase key rest

/-- Inserts one after the other: a repeated key keeps its first place and its last value. -/
def ofList (pairs : List (String × α)) : Entries α :=
  pairs.foldl (fun entries pair => entries.insert pair.1 pair.2) []

end Entries
end SchemaForm
