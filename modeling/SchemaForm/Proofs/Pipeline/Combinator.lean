import SchemaForm.Proofs.Pipeline.Defaults
import SchemaForm.Proofs.Pipeline.KeysUnique
import SchemaForm.Proofs.Pipeline.Selection
import SchemaForm.Proofs.Pipeline.Tree

/-!
# The combinators of a model

Two walks decide what a field shows of its branches: the pass over the selections decides which
choice counts, and the tree shows the branches of the fragment that it comes to before a choice. A
choice is in force where the tree comes to a fragment without branches of its own, or where the data
single out the chosen one among the same branches.
-/

namespace SchemaForm

/-- If all branches fit, the ones that fit are all of them. -/
theorem Combinator.fitting_of_forall {fits : Json → Bool} {options : List Json}
    (h : ∀ option ∈ options, fits option = true) :
    Combinator.fitting fits options = List.range options.length := by
  unfold Combinator.fitting
  rw [List.filter_eq_self]
  intro i hi
  have hlt := List.mem_range.1 hi
  rw [List.getElem?_eq_getElem hlt]
  exact h _ (List.getElem_mem hlt)

/-- Branches that are matched are one in force, and not ambiguous, if exactly that one fits. -/
theorem Combinator.matched_iff (kind : CombinatorKind) {options : List Json} {fits : Json → Bool}
    {index : Nat} :
    (matched kind options fits).active = some index ∧
        (matched kind options fits).ambiguous = false ↔
      fitting fits options = [index] := by
  show (fitting fits options).head? = some index ∧
    decide (1 < (fitting fits options).length) = false ↔ _
  rw [decide_eq_false_iff_not]
  cases fitting fits options with
  | nil =>
    constructor
    · rintro ⟨h, -⟩
      cases h
    · intro h
      cases h
  | cons first rest =>
    rw [List.head?_cons, Option.some.injEq, List.length_cons, List.cons.injEq]
    constructor
    · rintro ⟨hfirst, hlength⟩
      exact ⟨hfirst, List.eq_nil_of_length_eq_zero (by omega)⟩
    · rintro ⟨hfirst, rfl⟩
      exact ⟨hfirst, by decide⟩

namespace Combinator

variable {fits : Json → Bool} {options : List Json} {index : Nat}

/-- There is a branch of this number, and it fits. -/
def FitsAt (fits : Json → Bool) (options : List Json) (index : Nat) : Prop :=
  ∃ option, options[index]? = some option ∧ fits option = true

theorem mem_fitting_iff : index ∈ fitting fits options ↔ FitsAt fits options index := by
  unfold fitting FitsAt
  rw [List.mem_filter, List.mem_range]
  constructor
  · rintro ⟨hlt, hfits⟩
    rw [List.getElem?_eq_getElem hlt] at hfits
    exact ⟨_, List.getElem?_eq_getElem hlt, hfits⟩
  · rintro ⟨option, hoption, hfits⟩
    obtain ⟨hlt, -⟩ := List.getElem?_eq_some_iff.1 hoption
    rw [hoption]
    exact ⟨hlt, hfits⟩

theorem pairwise_fitting (fits : Json → Bool) (options : List Json) :
    (fitting fits options).Pairwise (· < ·) :=
  List.pairwise_lt_range.filter _

/-- The first branch that fits is the one of the least number. -/
theorem head?_fitting_eq_some_iff :
    (fitting fits options).head? = some index ↔
      FitsAt fits options index ∧ ∀ i < index, ¬ FitsAt fits options i := by
  have hsorted := pairwise_fitting fits options
  simp only [← mem_fitting_iff]
  cases hfitting : fitting fits options with
  | nil =>
    constructor
    · intro h
      cases h
    · rintro ⟨h, -⟩
      cases h
  | cons first rest =>
    rw [hfitting] at hsorted
    have hfirst := (List.pairwise_cons.1 hsorted).1
    rw [List.head?_cons, Option.some.injEq]
    constructor
    · rintro rfl
      refine ⟨List.mem_cons_self, fun i hi hmem => ?_⟩
      rcases List.mem_cons.1 hmem with rfl | hmem
      · exact absurd hi (Nat.lt_irrefl i)
      · exact absurd hi (Nat.lt_asymm (hfirst i hmem))
    · rintro ⟨hmem, hleast⟩
      rcases List.mem_cons.1 hmem with rfl | hmem
      · rfl
      · exact absurd List.mem_cons_self (hleast first (hfirst index hmem))

theorem head?_fitting_eq_none_iff :
    (fitting fits options).head? = none ↔ ∀ i, ¬ FitsAt fits options i := by
  simp only [List.head?_eq_none_iff, List.eq_nil_iff_forall_not_mem, mem_fitting_iff]

theorem one_lt_length_fitting_iff :
    1 < (fitting fits options).length ↔
      ∃ i j, i < j ∧ FitsAt fits options i ∧ FitsAt fits options j := by
  have hsorted := pairwise_fitting fits options
  simp only [← mem_fitting_iff]
  cases hfitting : fitting fits options with
  | nil => simp
  | cons first others =>
    cases others with
    | nil =>
      constructor
      · intro h
        exact absurd h (Nat.lt_irrefl 1)
      · rintro ⟨i, j, hlt, hi, hj⟩
        rw [List.mem_singleton.1 hi, List.mem_singleton.1 hj] at hlt
        exact absurd hlt (Nat.lt_irrefl first)
    | cons second rest =>
      rw [hfitting] at hsorted
      have hlt := (List.pairwise_cons.1 hsorted).1 second List.mem_cons_self
      constructor
      · intro _
        exact ⟨first, second, hlt, List.mem_cons_self, List.mem_cons_of_mem _ List.mem_cons_self⟩
      · intro _
        simp only [List.length_cons]
        omega

/-- Looking for the first branch that fits finds the branch of the least number. -/
theorem find?_eq_of_head?_fitting (h : (fitting fits options).head? = some index) :
    options.find? fits = options[index]? := by
  obtain ⟨⟨option, hoption, hfits⟩, hleast⟩ := head?_fitting_eq_some_iff.1 h
  obtain ⟨hlt, hget⟩ := List.getElem?_eq_some_iff.1 hoption
  rw [hoption, List.find?_eq_some_iff_getElem]
  refine ⟨hfits, index, hlt, hget, fun j hj => ?_⟩
  rw [Bool.not_eq_true', Bool.eq_false_iff]
  intro hfitsj
  exact hleast j hj ⟨_, List.getElem?_eq_getElem (Nat.lt_trans hj hlt), hfitsj⟩

theorem find?_eq_none_of_head?_fitting (h : (fitting fits options).head? = none) :
    options.find? fits = none := by
  rw [List.find?_eq_none]
  intro option hoption hfits
  obtain ⟨i, hi⟩ := List.mem_iff_getElem?.1 hoption
  exact head?_fitting_eq_none_iff.1 h i ⟨option, hi, hfits⟩

end Combinator

/-- The field shows these branches with one of them in force, and no other one fits too. -/
def FieldNode.Shows (n : FieldNode) (options : List Json) (index : Nat) : Prop :=
  ∃ combinator, n.combinator = some combinator ∧ combinator.options = options ∧
    combinator.active = some index ∧ combinator.ambiguous = false

namespace Pipeline

open Json Schema

/-- The combinator of the field at the end of segments: the branches that its fragment declares,
or else the choice that counts there. -/
theorem combinator_plainModel [Patterns] (prepared : Document) (data : Option Json)
    (selections : Selections) (segments : List String) :
    ((plainModel prepared data selections).get? (Pointer.build segments)).map
        FieldNode.combinator =
      (FieldTree.fragmentAt segments (chosenSchema selections (situated prepared data)) data).map
        fun found => (FieldTree.ownCombinator? found.1 found.2).orElse fun _ =>
          Selection.choiceAt selections segments (situated prepared data) "" := by
  have hpinned :
      (pinnedCombinators selections (situated prepared data)).get? (Pointer.build segments) =
        Selection.choiceAt selections segments (situated prepared data) "" :=
    get?_pinnedCombinators (prepared.situated data) selections segments
  show ((Defaults.apply (plainIndex prepared data selections) data).2.get? _).map _ = _
  rw [Defaults.map_get?_apply (fun _ _ => rfl)]
  unfold plainIndex
  rw [← hpinned]
  exact FieldTree.combinator_get?_build ((prepared.situated data).chosen selections) data segments

/-- At the end of segments the tree comes to a fragment that leaves a choice in force: the fragment
declares no branches, and the walk over the selections is offered these ones there; or the fragment
declares these branches itself, and the data fit the chosen one alone. -/
def ChoiceInForce [Patterns] (schema : Json) (data : Option Json) (selections : Selections)
    (segments : List String) (options : List Json) (index : Nat) : Prop :=
  ∃ fragment value,
    FieldTree.fragmentAt segments (chosenSchema selections schema) data = some (fragment, value) ∧
      match branches? (membersOf (some fragment)) with
      | none => ∃ kind,
        (Selection.keywordsAt selections segments schema "").bind branches? =
          some (kind, options) ∧ index < options.length
      | some (_, offered) =>
        offered = options ∧
          Combinator.fitting (fun option => accepts option value) offered = [index]

/-- Where a choice is noted, the field shows the chosen branch if and only if the choice is in
force. -/
theorem shows_plainModel_iff [Patterns] (prepared : Document)
    (data : Option Json) {selections : Selections} {segments : List String} {index : Nat}
    (hindex : selections.get? (Pointer.build segments) = some index) (options : List Json) :
    (∃ n, (plainModel prepared data selections).get? (Pointer.build segments) = some n ∧
        n.Shows options index) ↔
      ChoiceInForce (situated prepared data) data selections segments options index := by
  have hcombinator := combinator_plainModel prepared data selections segments
  unfold ChoiceInForce
  constructor
  · rintro ⟨n, hn, combinator, hshown, hoptions, hactive, hambiguous⟩
    rw [hn, Option.map_some] at hcombinator
    obtain ⟨⟨fragment, value⟩, hfragment, heq⟩ := Option.map_eq_some_iff.1 hcombinator.symm
    refine ⟨fragment, value, hfragment, ?_⟩
    rw [hshown] at heq
    dsimp only at heq
    unfold FieldTree.ownCombinator? at heq
    cases hbranches : branches? (membersOf (some fragment)) with
    | none =>
      rw [hbranches] at heq
      obtain ⟨kind, offered, chosen, hoffer, hchosen, hlt, rfl⟩ :=
        Selection.choiceAt_eq_some_iff.1 heq
      rw [Pointer.join_empty, hindex] at hchosen
      cases hchosen
      cases hoptions
      exact ⟨kind, hoffer, hlt⟩
    | some offer =>
      obtain ⟨kind, offered⟩ := offer
      rw [hbranches] at heq
      cases heq
      exact ⟨hoptions, (Combinator.matched_iff kind).1 ⟨hactive, hambiguous⟩⟩
  · rintro ⟨fragment, value, hfragment, hforce⟩
    rw [hfragment, Option.map_some] at hcombinator
    obtain ⟨n, hn, hshown⟩ := Option.map_eq_some_iff.1 hcombinator
    refine ⟨n, hn, ?_⟩
    dsimp only at hshown
    unfold FieldTree.ownCombinator? at hshown
    cases hbranches : branches? (membersOf (some fragment)) with
    | none =>
      rw [hbranches] at hforce hshown
      obtain ⟨kind, hoffer, hlt⟩ := hforce
      have hchoice : Selection.choiceAt selections segments (situated prepared data) "" =
          some (Combinator.pinned kind options index) := by
        refine Selection.choiceAt_eq_some_iff.2 ⟨kind, options, index, hoffer, ?_, hlt, rfl⟩
        rw [Pointer.join_empty]
        exact hindex
      exact ⟨Combinator.pinned kind options index, hshown.trans hchoice, rfl, rfl, rfl⟩
    | some offer =>
      obtain ⟨kind, offered⟩ := offer
      rw [hbranches] at hforce hshown
      obtain ⟨hoptions, hfitting⟩ := hforce
      obtain ⟨hactive, hambiguous⟩ := (Combinator.matched_iff kind).2 hfitting
      exact ⟨_, hshown, hoptions, hactive, hambiguous⟩

end Pipeline
end SchemaForm
