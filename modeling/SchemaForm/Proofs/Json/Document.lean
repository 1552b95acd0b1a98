import SchemaForm.Document
import SchemaForm.Proofs.Json.KeysUnique

/-!
# Reading documents

Whatever is read from a text is a document: of two members with one key the first place and the last
value are kept.
-/

namespace SchemaForm

open Json

namespace Json

theorem membersUnique_ofList {members : Fields} (h : ∀ entry ∈ members, entry.2.KeysUnique) :
    MembersUnique (Entries.ofList members) := by
  suffices hwritten : ∀ written, MembersUnique written →
      MembersUnique (members.foldl (fun written e => Entries.insert e.1 e.2 written) written) from
    hwritten [] membersUnique_nil
  induction members with
  | nil => exact fun _ hwritten => hwritten
  | cons entry rest ih =>
    intro written hwritten
    refine ih (fun e he => h e (List.mem_cons_of_mem _ he)) _ ?_
    exact hwritten.insert entry.1 (h entry List.mem_cons_self)

namespace Parser

theorem eq_some_of_progress {α : Type} {cs : List Char} {found : Option (α × List Char)}
    {r : { r : α × List Char // r.2.length < cs.length }} (h : progress cs found = some r) :
    found = some r.1 := by
  unfold progress at h
  split at h
  · cases h
  · split at h
    · cases h
      rfl
    · cases h

theorem keysUnique_of_scalar? {cs rest : List Char} {v : Json}
    (h : scalar? cs = some (v, rest)) : v.KeysUnique := by
  unfold scalar? at h
  split at h
  all_goals
    obtain ⟨found, -, heq⟩ := Option.map_eq_some_iff.1 h
    cases heq
    simp

/-- Behind an opening bracket there is less left. -/
theorem length_lt_of_skipBlanks {cs rest : List Char} {c : Char} (h : skipBlanks cs = c :: rest) :
    rest.length < cs.length := by
  have hle := length_skipBlanks_le cs
  rw [h, List.length_cons] at hle
  omega

mutual

theorem keysUnique_of_value? {depth : Nat} {cs : List Char}
    {r : { r : Json × List Char // r.2.length < cs.length }} (h : value? depth cs = some r) :
    r.1.1.KeysUnique := by
  rw [value?] at h
  split at h
  · next rest hrest =>
    have hshorter := length_lt_of_skipBlanks hrest
    dsimp only at h
    split at h
    · cases h
    · split at h
      · cases h
        exact .arr (by simp)
      · split at h
        · cases h
        · next items after _ hitems =>
          cases h
          exact .arr (keysUnique_of_items? hitems)
  · next rest hrest =>
    have hshorter := length_lt_of_skipBlanks hrest
    dsimp only at h
    split at h
    · cases h
    · split at h
      · cases h
        exact keysUnique_obj_iff.2 membersUnique_nil
      · split at h
        · cases h
        · next members after _ hmembers =>
          cases h
          exact keysUnique_obj_iff.2 (membersUnique_ofList (keysUnique_of_members? hmembers))
  · exact keysUnique_of_scalar? (eq_some_of_progress h)
termination_by (cs.length, 0)

theorem keysUnique_of_items? {depth : Nat} {cs : List Char}
    {r : { r : List Json × List Char // r.2.length < cs.length }}
    (h : Parser.items? depth cs = some r) : ∀ v ∈ r.1.1, v.KeysUnique := by
  rw [Parser.items?] at h
  split at h
  · cases h
  · next v rest hless hv =>
    have hfirst := keysUnique_of_value? hv
    split at h
    · next more hmore =>
      have hshorter : more.length < cs.length :=
        Nat.lt_trans (length_lt_of_skipBlanks hmore) hless
      dsimp only at h
      split at h
      · cases h
      · next vs after _ hvs =>
        cases h
        exact List.forall_mem_cons.2 ⟨hfirst, keysUnique_of_items? hvs⟩
    · cases h
      exact List.forall_mem_singleton.2 hfirst
    · cases h
termination_by (cs.length, 1)

theorem keysUnique_of_members? {depth : Nat} {cs : List Char}
    {r : { r : List (String × Json) × List Char // r.2.length < cs.length }}
    (h : members? depth cs = some r) : ∀ entry ∈ r.1.1, entry.2.KeysUnique := by
  rw [members?] at h
  split at h
  · cases h
  · next key rest hkey _ =>
    split at h
    · cases h
    · next v rest' hless hv =>
      have hfirst := keysUnique_of_value? hv
      split at h
      · next more hmore =>
        have hshorter : more.length < cs.length :=
          Nat.lt_trans (Nat.lt_trans (length_lt_of_skipBlanks hmore) hless) hkey
        dsimp only at h
        split at h
        · cases h
        · next vs after _ hvs =>
          cases h
          exact List.forall_mem_cons.2 ⟨hfirst, keysUnique_of_members? hvs⟩
      · cases h
        exact List.forall_mem_singleton.2 hfirst
      · cases h
termination_by (cs.length, 1)

end

end Parser

/-- A repeated key is written over, so what a text holds has no key twice. -/
theorem keysUnique_of_parse? {text : String} {v : Json} (h : parse? text = some v) :
    v.KeysUnique := by
  unfold parse? at h
  split at h
  · next found rest _ hfound =>
    split at h
    · cases h
      exact Parser.keysUnique_of_value? hfound
    · cases h
  · cases h

end Json

namespace Document

/-- The document that a text holds. -/
def parse? (text : String) : Option Document :=
  match h : Json.parse? text with
  | some v => some ⟨v, keysUnique_of_parse? h⟩
  | none => none

theorem map_value_parse? (text : String) : (parse? text).map value = Json.parse? text := by
  unfold parse?
  split
  · next h => exact h.symm
  · next h => exact h.symm

/-- Whatever a file holds, what is loaded from it is a document. -/
theorem exists_of_load {path : String} {content : FileContent} {v : Json}
    (h : load path content = .ok v) : ∃ document : Document, (document : Json) = v := by
  obtain ⟨text, htext⟩ : ∃ text, Json.parse? text = some v := by
    unfold load at h
    split at h
    · cases h
    · cases h
    · split at h
      · next text _ =>
        unfold ofText at h
        split at h
        · next hparse =>
          cases h
          exact ⟨text, hparse⟩
        · cases h
      · cases h
  exact ⟨⟨v, keysUnique_of_parse? htext⟩, rfl⟩

end Document
end SchemaForm
