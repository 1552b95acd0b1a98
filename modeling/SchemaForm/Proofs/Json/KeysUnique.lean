import SchemaForm.Json.Basic
import SchemaForm.Proofs.Entries

/-!
# Distinct keys

A JSON object is a map: no key comes twice. Here objects are lists of members, so this is a property
of a value, at every depth, that the operations keep. `Document` is the type of the values that have
it. What is said of schemas and data as a whole is said of documents; what goes by recursion on a
value has the property as a hypothesis.
-/

namespace SchemaForm

namespace Json

/-- No object in the value has a key twice. -/
inductive KeysUnique : Json → Prop where
  | null : KeysUnique .null
  | bool (b : Bool) : KeysUnique (.bool b)
  | num (n : Number) : KeysUnique (.num n)
  | str (s : String) : KeysUnique (.str s)
  | arr {items : List Json} (h : ∀ v ∈ items, KeysUnique v) : KeysUnique (.arr items)
  | obj {entries : List (String × Json)} (nodup : (Entries.keys entries).Nodup)
      (values : ∀ entry ∈ entries, KeysUnique entry.2) : KeysUnique (.obj entries)

attribute [simp] KeysUnique.null KeysUnique.bool KeysUnique.num KeysUnique.str

/-- No key comes twice among the members or in one of them. -/
structure MembersUnique (entries : Fields) : Prop where
  nodup : (Entries.keys entries).Nodup
  values : ∀ entry ∈ entries, KeysUnique entry.2

@[simp] theorem keysUnique_obj_iff {entries : Fields} :
    KeysUnique (.obj entries) ↔ MembersUnique entries := by
  constructor
  · intro h
    cases h with
    | obj nodup values => exact ⟨nodup, values⟩
  · rintro ⟨nodup, values⟩
    exact .obj nodup values

@[simp] theorem keysUnique_arr_iff {items : List Json} :
    KeysUnique (.arr items) ↔ ∀ v ∈ items, KeysUnique v := by
  constructor
  · intro h
    cases h with
    | arr h => exact h
  · exact .arr

@[simp] theorem membersUnique_nil : MembersUnique [] := ⟨List.nodup_nil, fun _ h => by cases h⟩

@[simp] theorem membersUnique_cons_iff {key : String} {v : Json} {rest : Fields} :
    MembersUnique ((key, v) :: rest) ↔
      key ∉ Entries.keys rest ∧ v.KeysUnique ∧ MembersUnique rest := by
  constructor
  · rintro ⟨nodup, values⟩
    rw [Entries.keys_cons, List.nodup_cons] at nodup
    exact ⟨nodup.1, values _ List.mem_cons_self, nodup.2,
      fun entry h => values entry (List.mem_cons_of_mem _ h)⟩
  · rintro ⟨hkey, hv, nodup, values⟩
    refine ⟨?_, ?_⟩
    · rw [Entries.keys_cons, List.nodup_cons]
      exact ⟨hkey, nodup⟩
    · intro entry h
      rcases List.mem_cons.1 h with rfl | h
      · exact hv
      · exact values entry h

@[simp] theorem keysUnique_int (n : Int) : (int n).KeysUnique := .num _

@[simp] theorem keysUnique_empty : KeysUnique empty := keysUnique_obj_iff.2 membersUnique_nil

namespace MembersUnique

variable {entries : Fields}

theorem get? (h : MembersUnique entries) {key : String} {v : Json}
    (hv : Entries.get? key entries = some v) : v.KeysUnique :=
  h.values _ (Entries.mem_of_get? hv)

theorem insert (h : MembersUnique entries) (key : String) {v : Json} (hv : v.KeysUnique) :
    MembersUnique (Entries.insert key v entries) := by
  refine ⟨Entries.nodup_keys_insert h.nodup key v, fun entry hentry => ?_⟩
  rcases Entries.mem_insert hentry with rfl | hentry
  · exact hv
  · exact h.values entry hentry

theorem eraseAll (h : MembersUnique entries) (keys : List String) :
    MembersUnique (Entries.eraseAll keys entries) :=
  ⟨Entries.nodup_keys_filter h.nodup _,
    fun entry hentry => h.values entry (List.mem_of_mem_filter hentry)⟩

theorem swapErase (h : MembersUnique entries) (key : String) :
    MembersUnique (Entries.swapErase key entries) :=
  ⟨Entries.nodup_keys_swapErase h.nodup key,
    fun entry hentry => h.values entry (Entries.mem_of_mem_swapErase hentry)⟩

/-- New values under the same keys. -/
theorem map (h : MembersUnique entries) {f : String × Json → Json}
    (hf : ∀ entry ∈ entries, (f entry).KeysUnique) :
    MembersUnique (entries.map fun entry => (entry.1, f entry)) := by
  refine ⟨?_, fun entry hentry => ?_⟩
  · rw [Entries.keys_map]
    exact h.nodup
  · obtain ⟨original, horiginal, rfl⟩ := List.mem_map.1 hentry
    exact hf original horiginal

end MembersUnique

/-- Only an object has a key. -/
theorem isObj_of_get? {v w : Json} {key : String} (h : v.get? key = some w) : v.isObj = true := by
  cases v with
  | obj entries => rfl
  | _ => cases h

namespace KeysUnique

variable {v w : Json}

theorem fields? (h : v.KeysUnique) {fields : Fields} (hfields : v.fields? = some fields) :
    MembersUnique fields := by
  cases v with
  | obj entries =>
    cases hfields
    exact keysUnique_obj_iff.1 h
  | _ => cases hfields

theorem items? (h : v.KeysUnique) {items : List Json} (hitems : v.items? = some items) :
    ∀ item ∈ items, item.KeysUnique := by
  cases v with
  | arr items' =>
    cases hitems
    exact keysUnique_arr_iff.1 h
  | _ => cases hitems

theorem get? (h : v.KeysUnique) {key : String} (hw : v.get? key = some w) : w.KeysUnique := by
  cases v with
  | obj entries => exact (keysUnique_obj_iff.1 h).get? hw
  | _ => cases hw

theorem getFields? (h : v.KeysUnique) {key : String} {fields : Fields}
    (hfields : v.getFields? key = some fields) : MembersUnique fields := by
  obtain ⟨w, hw, hfields⟩ := Option.bind_eq_some_iff.1 hfields
  exact (h.get? hw).fields? hfields

end KeysUnique

end Json

/-- A value in which no object has a key twice. -/
structure Document where
  value : Json
  keysUnique : value.KeysUnique

attribute [coe] Document.value

instance : Coe Document Json := ⟨Document.value⟩

namespace Document

theorem membersUnique {document : Document} {fields : Fields}
    (h : (document : Json) = .obj fields) : Json.MembersUnique fields :=
  Json.keysUnique_obj_iff.1 (h ▸ document.keysUnique)

theorem exists_members {document : Document} (h : (document : Json).isObj = true) :
    ∃ fields, (document : Json) = .obj fields ∧ Json.MembersUnique fields := by
  cases hvalue : (document : Json) with
  | obj fields => exact ⟨fields, rfl, membersUnique hvalue⟩
  | _ =>
    rw [hvalue] at h
    cases h

/-- What data hold that may be absent. -/
theorem keysUnique_of_mem {data : Option Document} {v : Json} (h : v ∈ data.map value) :
    v.KeysUnique := by
  obtain ⟨document, -, rfl⟩ := Option.map_eq_some_iff.1 h
  exact document.keysUnique

/-- The same in a list. -/
theorem keysUnique_of_mem_map {documents : List Document} {v : Json}
    (h : v ∈ documents.map value) : v.KeysUnique := by
  obtain ⟨document, -, rfl⟩ := List.mem_map.1 h
  exact document.keysUnique

end Document
end SchemaForm
