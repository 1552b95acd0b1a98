/-!
# Sorted maps

A map from texts as the list of its entries, in strictly increasing order of the keys by code
points. Two maps with the same entries are equal, and listing a map needs no sorting.
-/

namespace SchemaForm

/-- A map from texts, sorted by key. -/
structure SortedMap (α : Type) where
  entries : List (String × α)
  sorted : entries.Pairwise fun a b => a.1 < b.1

namespace SortedMap

variable {α β : Type}

/-- The map without entries. -/
def empty : SortedMap α := ⟨[], .nil⟩

instance : Inhabited (SortedMap α) := ⟨empty⟩

/-- The value of a key in a list of entries. -/
def lookup (key : String) : List (String × α) → Option α
  | [] => none
  | (k, v) :: rest => if k = key then some v else lookup key rest

/-- The value of a key. -/
def get? (key : String) (m : SortedMap α) : Option α := lookup key m.entries

/-- The key has a value. -/
def contains (key : String) (m : SortedMap α) : Bool := (m.get? key).isSome

/-- The keys in order. -/
def keys (m : SortedMap α) : List String := m.entries.map Prod.fst

/-- The values in order of their keys. -/
def values (m : SortedMap α) : List α := m.entries.map Prod.snd

/-- The number of keys. -/
def size (m : SortedMap α) : Nat := m.entries.length

/-- The map has no entry. -/
def isEmpty (m : SortedMap α) : Bool := m.entries.isEmpty

/-- Writes a value into sorted entries. -/
def insertEntry (key : String) (value : α) : List (String × α) → List (String × α)
  | [] => [(key, value)]
  | (k, v) :: rest =>
    if key < k then (key, value) :: (k, v) :: rest
    else if key = k then (key, value) :: rest
    else (k, v) :: insertEntry key value rest

theorem fst_of_mem_insertEntry {key : String} {value : α} {entries : List (String × α)}
    {entry : String × α} (h : entry ∈ insertEntry key value entries) :
    entry.1 = key ∨ entry ∈ entries := by
  induction entries with
  | nil => simp [insertEntry] at h; simp [h]
  | cons head rest ih =>
    simp only [insertEntry] at h
    split at h
    · rcases List.mem_cons.1 h with rfl | h
      · exact .inl rfl
      · exact .inr h
    · split at h
      · rcases List.mem_cons.1 h with rfl | h
        · exact .inl rfl
        · exact .inr (List.mem_cons_of_mem _ h)
      · rcases List.mem_cons.1 h with rfl | h
        · exact .inr List.mem_cons_self
        · exact (ih h).imp_right (List.mem_cons_of_mem _)

theorem pairwise_insertEntry (key : String) (value : α) {entries : List (String × α)}
    (h : entries.Pairwise fun a b => a.1 < b.1) :
    (insertEntry key value entries).Pairwise fun a b => a.1 < b.1 := by
  induction entries with
  | nil => simp [insertEntry]
  | cons head rest ih =>
    obtain ⟨hhead, hrest⟩ := List.pairwise_cons.1 h
    simp only [insertEntry]
    split
    · next hlt =>
      refine List.pairwise_cons.2 ⟨fun b hb => ?_, h⟩
      rcases List.mem_cons.1 hb with rfl | hb
      · exact hlt
      · exact String.lt_trans hlt (hhead b hb)
    · next hnlt =>
      split
      · next heq => exact List.pairwise_cons.2 ⟨fun b hb => heq ▸ hhead b hb, hrest⟩
      · next hne =>
        refine List.pairwise_cons.2 ⟨fun b hb => ?_, ih hrest⟩
        rcases fst_of_mem_insertEntry hb with hkey | hb
        · exact hkey ▸ Std.lt_of_le_of_ne (String.not_lt.1 hnlt) (Ne.symm hne)
        · exact hhead b hb

/-- Writes a value. -/
def insert (key : String) (value : α) (m : SortedMap α) : SortedMap α :=
  ⟨insertEntry key value m.entries, pairwise_insertEntry key value m.sorted⟩

/-- Removes a key. -/
def erase (key : String) (m : SortedMap α) : SortedMap α :=
  ⟨m.entries.filter fun entry => entry.1 != key, m.sorted.filter _⟩

/-- Changes the values; the keys stay. -/
def map (f : String → α → β) (m : SortedMap α) : SortedMap β :=
  ⟨m.entries.map fun entry => (entry.1, f entry.1 entry.2), by
    rw [List.pairwise_map]
    exact m.sorted⟩

/-- Changes the values of a list of entries one after the other, with a state. -/
def mapAccumEntries {σ : Type} (f : String → α → σ → β × σ) :
    List (String × α) → σ → List (String × β) × σ
  | [], s => ([], s)
  | (k, v) :: rest, s =>
    let changed := f k v s
    let others := mapAccumEntries f rest changed.2
    ((k, changed.1) :: others.1, others.2)

theorem map_fst_mapAccumEntries {σ : Type} (f : String → α → σ → β × σ)
    (entries : List (String × α)) (s : σ) :
    (mapAccumEntries f entries s).1.map Prod.fst = entries.map Prod.fst := by
  induction entries generalizing s with
  | nil => rfl
  | cons head rest ih => simp [mapAccumEntries, ih]

/-- Changes the values one after the other in the order of their keys, with a state that each value
meets as the values before it left it. -/
def mapAccum {σ : Type} (f : String → α → σ → β × σ) (m : SortedMap α) (s : σ) :
    SortedMap β × σ :=
  let changed := mapAccumEntries f m.entries s
  (⟨changed.1, by
    have hkeys := List.pairwise_map.2 m.sorted
    rw [← map_fst_mapAccumEntries f m.entries s] at hkeys
    exact List.pairwise_map.1 hkeys⟩, changed.2)

/-- Changes the value of one key, if it has one. -/
def modify (key : String) (f : α → α) (m : SortedMap α) : SortedMap α :=
  m.map fun k v => if k = key then f v else v

/-- Inserts one after the other: the last value of a key counts. -/
def ofList (pairs : List (String × α)) : SortedMap α :=
  pairs.foldl (fun m pair => m.insert pair.1 pair.2) empty

/-- Writes all entries of the second map over the first. -/
def insertAll (pairs : List (String × α)) (m : SortedMap α) : SortedMap α :=
  pairs.foldl (fun m pair => m.insert pair.1 pair.2) m

@[ext] theorem ext {m n : SortedMap α} (h : m.entries = n.entries) : m = n := by
  cases m; cases n; simp_all

end SortedMap

/-- A sorted set of texts. -/
abbrev SortedSet := SortedMap Unit

namespace SortedSet

/-- The set without elements. -/
def empty : SortedSet := SortedMap.empty

/-- Adds an element. -/
def add (key : String) (s : SortedSet) : SortedSet := SortedMap.insert key () s

/-- The elements in order. -/
def toList (s : SortedSet) : List String := SortedMap.keys s

/-- The set of the elements of a list. -/
def ofList (keys : List String) : SortedSet := keys.foldl (fun s key => add key s) empty

/-- Membership. -/
def has (key : String) (s : SortedSet) : Bool := SortedMap.contains key s

end SortedSet
end SchemaForm
