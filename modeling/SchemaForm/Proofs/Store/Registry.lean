import Mathlib.Data.List.Flatten
import Mathlib.Data.List.Nodup
import Mathlib.Data.List.Pairwise
import SchemaForm.Proofs.SortedMap
import SchemaForm.Store.Registry

/-!
# The numbers of listeners

No number is handed out twice. In a registry that grew from the empty one by subscribing and
unsubscribing every number stands once, in one channel and, among path listeners, under one path.
-/

namespace SchemaForm

open List

namespace SortedMap

variable {α : Type}

/-- One more element in the list of a key is one more element in all lists together. -/
theorem flatMap_insertEntry_perm {entries : List (String × List α)}
    (hs : entries.Pairwise fun a b => a.1 < b.1) (key : String) (a : α) :
    (insertEntry key ((lookup key entries).getD [] ++ [a]) entries).flatMap Prod.snd ~
      a :: entries.flatMap Prod.snd := by
  induction entries with
  | nil => rfl
  | cons head rest ih =>
    obtain ⟨k, v⟩ := head
    simp only [insertEntry]
    split
    · next hlt =>
      rw [lookup_cons_eq_none_of_lt hs hlt]
      rfl
    · split
      · next heq =>
        subst heq
        rw [lookup_cons, if_pos rfl, Option.getD_some, List.flatMap_cons, List.flatMap_cons,
          List.append_assoc]
        exact List.perm_middle
      · next hne =>
        rw [lookup_cons, if_neg (Ne.symm hne), List.flatMap_cons, List.flatMap_cons]
        exact ((ih (List.pairwise_cons.1 hs).2).append_left v).trans List.perm_middle

/-- Fewer elements in the list of a key are fewer elements in all lists together. -/
theorem flatMap_insertEntry_sublist {entries : List (String × List α)}
    (hs : entries.Pairwise fun a b => a.1 < b.1) {key : String} {before after : List α}
    (hfound : lookup key entries = some before) (hsub : after <+ before) :
    (insertEntry key after entries).flatMap Prod.snd <+ entries.flatMap Prod.snd := by
  induction entries with
  | nil => cases hfound
  | cons head rest ih =>
    obtain ⟨k, v⟩ := head
    simp only [insertEntry]
    split
    · next hlt =>
      rw [lookup_cons_eq_none_of_lt hs hlt] at hfound
      cases hfound
    · split
      · next heq =>
        subst heq
        rw [lookup_cons, if_pos rfl] at hfound
        cases hfound
        rw [List.flatMap_cons, List.flatMap_cons]
        exact hsub.append_right _
      · next hne =>
        rw [lookup_cons, if_neg (Ne.symm hne)] at hfound
        rw [List.flatMap_cons, List.flatMap_cons]
        exact (ih (List.pairwise_cons.1 hs).2 hfound).append_left v

end SortedMap

namespace Registry

/-- The numbers of all listeners, those of paths first. -/
def ids (r : Registry) : List Nat :=
  r.paths.entries.flatMap Prod.snd ++ r.models ++ r.formStates

/-- Every number stands once and was handed out. -/
structure Sound (r : Registry) : Prop where
  nodup : r.ids.Nodup
  le_lastId : ∀ id ∈ r.ids, id ≤ r.lastId

theorem mem_listenersAt_iff {r : Registry} {path : String} {id : Nat} :
    id ∈ r.listenersAt path ↔
      ∃ listeners, (path, listeners) ∈ r.paths.entries ∧ id ∈ listeners := by
  unfold listenersAt
  constructor
  · intro h
    cases hfound : r.paths.get? path with
    | none => rw [hfound] at h; cases h
    | some listeners =>
      rw [hfound] at h
      exact ⟨listeners, SortedMap.mem_entries_iff.2 hfound, h⟩
  · rintro ⟨listeners, hmem, h⟩
    rw [SortedMap.mem_entries_iff.1 hmem]
    exact h

/-- A number listens at one path. -/
theorem Sound.path_unique {r : Registry} (h : r.Sound) {path other : String} {id : Nat}
    (hpath : id ∈ r.listenersAt path) (hother : id ∈ r.listenersAt other) : path = other := by
  obtain ⟨ids, hentry, hid⟩ := mem_listenersAt_iff.1 hpath
  obtain ⟨ids', hentry', hid'⟩ := mem_listenersAt_iff.1 hother
  have hnodup : (r.paths.entries.flatMap Prod.snd).Nodup :=
    (List.nodup_append.1 (List.nodup_append.1 h.nodup).1).1
  by_cases heq : path = other
  · exact heq
  · have hsymm : Std.Symm (Function.onFun List.Disjoint (Prod.snd : String × List Nat → _)) :=
      ⟨fun _ _ h _ hsecond hfirst => h hfirst hsecond⟩
    have hdisjoint := (List.nodup_flatMap.1 hnodup).2.forall hentry hentry'
      (fun h => heq (congrArg Prod.fst h))
    exact absurd hid' (hdisjoint hid)

/-- A number that listens at a path listens to nothing else. -/
theorem Sound.path_alone {r : Registry} (h : r.Sound) {path : String} {id : Nat}
    (hpath : id ∈ r.listenersAt path) : id ∉ r.models ∧ id ∉ r.formStates := by
  obtain ⟨listeners, hentry, hid⟩ := mem_listenersAt_iff.1 hpath
  have hmem : id ∈ r.paths.entries.flatMap Prod.snd := List.mem_flatMap.2 ⟨_, hentry, hid⟩
  obtain ⟨hfront, -, hstates⟩ := List.nodup_append.1 h.nodup
  constructor
  · intro hmodel
    exact (List.nodup_append.1 hfront).2.2 id hmem id hmodel rfl
  · intro hstate
    exact hstates id (List.mem_append_left _ hmem) id hstate rfl

theorem sound_empty : Sound empty := by
  constructor
  · exact List.nodup_nil
  · intro id h
    cases h

/-- The next number is new. -/
theorem Sound.extend {r after : Registry} (h : r.Sound) (hlast : after.lastId = r.lastId + 1)
    (hids : after.ids ~ (r.lastId + 1) :: r.ids) : after.Sound := by
  constructor
  · rw [hids.nodup_iff, List.nodup_cons]
    refine ⟨fun hmem => ?_, h.nodup⟩
    have := h.le_lastId _ hmem
    omega
  · intro id hmem
    rw [hids.mem_iff, List.mem_cons] at hmem
    rcases hmem with rfl | hmem
    · omega
    · have := h.le_lastId id hmem
      omega

theorem Sound.restrict {r after : Registry} (h : r.Sound) (hlast : after.lastId = r.lastId)
    (hids : after.ids <+ r.ids) : after.Sound := by
  constructor
  · exact h.nodup.sublist hids
  · intro id hmem
    rw [hlast]
    exact h.le_lastId id (hids.subset hmem)

theorem Sound.subscribe {r : Registry} (h : r.Sound) : r.subscribe.1.Sound := by
  refine h.extend rfl ?_
  show r.paths.entries.flatMap Prod.snd ++ (r.models ++ [r.lastId + 1]) ++ r.formStates ~ _
  unfold ids
  rw [← List.append_assoc, List.append_assoc _ [r.lastId + 1]]
  exact List.perm_middle

theorem Sound.subscribePath {r : Registry} (h : r.Sound) (path : String) :
    (r.subscribePath path).1.Sound := by
  refine h.extend rfl ?_
  have hperm := SortedMap.flatMap_insertEntry_perm r.paths.sorted path (r.lastId + 1)
  exact (hperm.append_right r.models).append_right r.formStates

theorem Sound.subscribeFormState {r : Registry} (h : r.Sound) :
    r.subscribeFormState.1.Sound := by
  refine h.extend rfl ?_
  show r.paths.entries.flatMap Prod.snd ++ r.models ++ (r.formStates ++ [r.lastId + 1]) ~ _
  rw [← List.append_assoc]
  exact List.perm_append_singleton _ _

theorem Sound.unsubscribe {r : Registry} (h : r.Sound) (subscription : Subscription) :
    (r.unsubscribe subscription).Sound := by
  cases subscription with
  | model id =>
    refine h.restrict rfl ?_
    exact ((List.Sublist.refl _).append List.erase_sublist).append_right _
  | formState id =>
    refine h.restrict rfl ?_
    exact (List.Sublist.refl _).append List.erase_sublist
  | path path id =>
    simp only [Registry.unsubscribe]
    cases hfound : r.paths.get? path with
    | none => exact h
    | some listeners =>
      dsimp only
      split
      · refine h.restrict rfl ?_
        exact ((List.filter_sublist.flatMap _).append_right _).append_right _
      · next rest herase =>
        refine h.restrict rfl ?_
        have hsub : listeners.erase id <+ listeners := List.erase_sublist
        have hflat := SortedMap.flatMap_insertEntry_sublist r.paths.sorted hfound hsub
        exact (hflat.append_right _).append_right _

end Registry
end SchemaForm
