import Mathlib.Data.List.Induction
import SchemaForm.Proofs.Pointer.RoundTrip
import SchemaForm.Proofs.Recursion
import SchemaForm.Proofs.Store.Dirty

/-!
# Climbing to the root

The paths that an edit touches can be found round by round: each round reads the path anew, drops its
last segment and touches what is written out again, until the root is reached. Writing out may make
the text longer, but every round leaves one slash less, so the climb ends, and what it touches are the
prefixes. For a pointer with its segments written out the touched paths are exactly its prefixes and
the dependents noted under it, and a path is affected if its segments are a prefix or if it is a
dependent or lies above one.
-/

namespace SchemaForm

namespace Pointer

/-- The number of slashes in a text. -/
def slashes (pointer : String) : Nat := pointer.toList.count '/'

/-- Written out, every segment brings one slash. -/
theorem slashes_build (segments : List String) : slashes (build segments) = segments.length := by
  rw [slashes, toList_build]
  induction segments with
  | nil => rfl
  | cons segment rest ih =>
    rw [buildChars_cons, List.count_cons_self, List.count_append,
      List.count_eq_zero.2 (slash_notMem_escape _), ih, Nat.zero_add, List.length_cons]

/-- What stands above has fewer slashes, however the pointer is spelled. -/
theorem slashes_parent_lt {pointer above : String} (hroot : pointer ≠ "")
    (h : parent pointer = .ok above) : slashes above < slashes pointer := by
  cases hparse : parse pointer with
  | error e =>
    rw [parent, hparse] at h
    cases h
  | ok segments =>
    rw [parent, hparse] at h
    obtain rfl : build segments.dropLast = above := Except.ok.inj h
    rw [slashes_build, List.length_dropLast]
    rcases toList_of_parse hparse with ⟨rfl | rfl, rfl⟩ | ⟨c, rest, htext, rfl⟩
    · exact absurd rfl hroot
    · decide
    · rw [List.length_map, length_pieces, slashes, htext, List.count_cons_self]
      omega

theorem mem_ofPrefixes_iff {segments : List String} {pointer : String} :
    pointer ∈ ofPrefixes segments ↔ ∃ upper, upper <+: segments ∧ pointer = build upper := by
  unfold ofPrefixes
  rw [List.mem_map]
  constructor
  · rintro ⟨n, -, rfl⟩
    exact ⟨segments.take n, List.take_prefix n segments, rfl⟩
  · rintro ⟨upper, hupper, rfl⟩
    refine ⟨upper.length, List.mem_range.2 (Nat.lt_succ_of_le hupper.length_le), ?_⟩
    rw [← List.prefix_iff_eq_take.1 hupper]

/-- A canonical pointer that is another one or lies above it has a prefix of its segments. -/
theorem prefix_of_atOrAbove {xs ys : List String}
    (h : build xs = build ys ∨ isDescendant (build xs) (build ys) = true) : xs <+: ys := by
  rcases h with heq | habove
  · exact build_injective heq ▸ List.prefix_refl _
  · exact (isDescendant_build_build_iff.1 habove).1

end Pointer

namespace Dirty

/-! ### The climb -/

/-- A place on the way to the root: the path there, and what is touched so far. -/
abbrev Place := String × SortedSet

/-- One round of the climb. At the root it is over; elsewhere what stands above the path is touched,
and `climb` goes on from there. -/
def round (climb : Place → Except PathError SortedSet) : Place → Except PathError SortedSet
  | (path, touched) =>
    if path = "" then
      .ok touched
    else do
      let above ← Pointer.parent path
      climb (above, SortedSet.add above touched)

/-- What is touched when the root is reached. -/
def climb (place : Place) : Except PathError SortedSet :=
  if _hroot : place.1 = "" then
    .ok place.2
  else
    match _habove : Pointer.parent place.1 with
    | .error e => .error e
    | .ok above => climb (above, SortedSet.add above place.2)
termination_by Pointer.slashes place.1
decreasing_by exact Pointer.slashes_parent_lt _hroot _habove

/-- One place stands above another. -/
def Above (upper lower : Place) : Prop := lower.1 ≠ "" ∧ Pointer.parent lower.1 = .ok upper.1

variable {path : String} {touched : SortedSet}

theorem climb_root : climb ("", touched) = .ok touched := by
  rw [climb, dif_pos rfl]

theorem climb_of_parent {above : String} (hroot : path ≠ "") (h : Pointer.parent path = .ok above) :
    climb (path, touched) = climb (above, SortedSet.add above touched) := by
  rw [climb, dif_neg hroot]
  split
  · next e he => cases he.symm.trans h
  · next found hfound => cases hfound.symm.trans h; rfl

theorem climb_of_error {e : PathError} (hroot : path ≠ "") (h : Pointer.parent path = .error e) :
    climb (path, touched) = .error e := by
  rw [climb, dif_neg hroot]
  split
  · next found hfound => cases hfound.symm.trans h; rfl
  · next above habove => cases habove.symm.trans h

theorem round_climb : round climb = climb := by
  funext place
  obtain ⟨path, touched⟩ := place
  rw [round]
  by_cases hroot : path = ""
  · rw [if_pos hroot, hroot, climb_root]
  · rw [if_neg hroot]
    cases h : Pointer.parent path with
    | error e => rw [climb_of_error hroot h]; rfl
    | ok above => rw [climb_of_parent hroot h]; rfl

/-- The climb ends: a round goes on one slash above. -/
theorem endsBy_climb : Recursion.EndsBy Above (fun place => Pointer.slashes place.1) round climb := by
  refine .of_consults round_climb (fun _ _ h => Pointer.slashes_parent_lt h.1 h.2) ?_
  rintro f g ⟨path, touched⟩ h
  rw [round, round]
  by_cases hroot : path = ""
  · rw [if_pos hroot, if_pos hroot]
  · rw [if_neg hroot, if_neg hroot]
    cases habove : Pointer.parent path with
    | error e => rfl
    | ok above => exact h _ ⟨hroot, habove⟩

/-! ### What is touched on the way -/

/-- From a pointer with its segments written out the climb touches the proper prefixes. -/
theorem exists_climb_build (segments : List String) (touched : SortedSet) :
    ∃ dirty, climb (Pointer.build segments, touched) = .ok dirty ∧
      ∀ q, SortedSet.has q dirty = true ↔ SortedSet.has q touched = true ∨
        ∃ upper, upper <+: segments ∧ upper ≠ segments ∧ q = Pointer.build upper := by
  induction segments using List.reverseRecOn generalizing touched with
  | nil =>
    refine ⟨touched, climb_root, fun q => ?_⟩
    simp
  | append_singleton segments segment ih =>
    have hroot : Pointer.build (segments ++ [segment]) ≠ "" := by
      rw [← Pointer.append_build]
      exact Pointer.append_ne_empty _ _
    rw [climb_of_parent hroot (Pointer.parent_build_concat segments segment)]
    obtain ⟨dirty, hclimb, hdirty⟩ := ih (SortedSet.add (Pointer.build segments) touched)
    refine ⟨dirty, hclimb, fun q => ?_⟩
    rw [hdirty, SortedSet.has_add, Bool.or_eq_true, decide_eq_true_iff]
    constructor
    · rintro ((rfl | htouched) | ⟨upper, hupper, -, rfl⟩)
      · exact Or.inr ⟨segments, List.prefix_append _ _, by simp, rfl⟩
      · exact Or.inl htouched
      · have hlength := hupper.length_le
        refine Or.inr ⟨upper, hupper.trans (List.prefix_append _ _), ?_, rfl⟩
        rintro rfl
        rw [List.length_append, List.length_singleton] at hlength
        exact Nat.not_succ_le_self _ hlength
    · rintro (htouched | ⟨upper, hupper, hne, rfl⟩)
      · exact Or.inl (Or.inr htouched)
      · have hbefore := (List.prefix_concat_iff.1 hupper).resolve_left hne
        by_cases heq : upper = segments
        · exact Or.inl (Or.inl (congrArg Pointer.build heq.symm))
        · exact Or.inr ⟨upper, hbefore, heq, rfl⟩

theorem has_singleton_iff {q : String} :
    SortedSet.has q (SortedSet.add path .empty) = true ↔ q = path := by
  rw [SortedSet.has_add, Bool.or_eq_true, decide_eq_true_iff]
  constructor
  · rintro (rfl | hempty)
    · rfl
    · cases hempty
  · exact fun hq => Or.inl hq.symm

/-- From any pointer that can be read the climb touches the prefixes of what stands above it. -/
theorem exists_climb_of_parse {segments : List String} (h : Pointer.parse path = .ok segments) :
    ∃ dirty, climb (path, SortedSet.add path .empty) = .ok dirty ∧
      ∀ q, SortedSet.has q dirty = true ↔
        q = path ∨ q ∈ Pointer.ofPrefixes segments.dropLast := by
  by_cases hroot : path = ""
  · subst hroot
    obtain rfl : segments = [] := (Except.ok.inj h).symm
    refine ⟨_, climb_root, fun q => ?_⟩
    rw [has_singleton_iff]
    simp [Pointer.ofPrefixes]
  · have habove : Pointer.parent path = .ok (Pointer.build segments.dropLast) := by
      rw [Pointer.parent, h]
      rfl
    rw [climb_of_parent hroot habove]
    obtain ⟨dirty, hclimb, hdirty⟩ := exists_climb_build segments.dropLast
      (SortedSet.add (Pointer.build segments.dropLast) (SortedSet.add path .empty))
    refine ⟨dirty, hclimb, fun q => ?_⟩
    rw [hdirty, SortedSet.has_add, Bool.or_eq_true, decide_eq_true_iff, has_singleton_iff,
      Pointer.mem_ofPrefixes_iff]
    constructor
    · rintro ((rfl | hpath) | ⟨upper, hupper, -, rfl⟩)
      · exact Or.inr ⟨_, List.prefix_refl _, rfl⟩
      · exact Or.inl hpath
      · exact Or.inr ⟨upper, hupper, rfl⟩
    · rintro (hpath | ⟨upper, hupper, rfl⟩)
      · exact Or.inl (Or.inr hpath)
      · by_cases heq : upper = segments.dropLast
        · exact Or.inl (Or.inl (congrArg Pointer.build heq.symm))
        · exact Or.inr ⟨upper, hupper, heq, rfl⟩

/-! ### The touched paths -/

/-- Adds the dependents that are noted under a path. -/
def addDependents (path : String) (deps : ConditionalDeps) (touched : SortedSet) : SortedSet :=
  (((SortedMap.get? path deps).map SortedSet.toList).getD []).foldl (fun s q => SortedSet.add q s)
    touched

theorem has_addDependents_iff {deps : ConditionalDeps} {q : String} :
    SortedSet.has q (addDependents path deps touched) = true ↔
      SortedSet.has q touched = true ∨ deps.Notes path q := by
  rw [addDependents, SortedSet.has_foldl_add_iff, or_comm]
  refine or_congr_right ?_
  unfold ConditionalDeps.Notes
  cases SortedMap.get? path deps with
  | none => simp
  | some dependents => simp [SortedSet.mem_toList_iff]

theorem paths_eq_error_iff {deps : ConditionalDeps} {e : PathError} :
    paths path deps = .error e ↔
      e = .invalidPointer path ∧ path ≠ "" ∧ ¬ Pointer.StartsWithSlash path := by
  rw [← Pointer.parse_eq_error_iff, paths]
  cases Pointer.parse path with
  | error e' =>
    show (Except.error e' : Except PathError SortedSet) = .error e ↔ _
    rw [Except.error.injEq, Except.error.injEq]
  | ok segments =>
    constructor
    · intro h
      cases h
    · intro h
      cases h

theorem exists_paths_build (segments : List String) (deps : ConditionalDeps) :
    ∃ dirty, paths (Pointer.build segments) deps = .ok dirty := by
  rw [exists_paths_iff]
  by_cases hslash : segments = [""]
  · exact ⟨[], hslash ▸ Pointer.parse_slash⟩
  · exact ⟨segments, Pointer.parse_build hslash⟩

/-- The touched paths are what the climb touches, and the dependents. -/
theorem paths_eq_climb (path : String) (deps : ConditionalDeps) :
    paths path deps =
      (climb (path, SortedSet.add path .empty)).map (addDependents path deps) := by
  cases hparse : Pointer.parse path with
  | error e =>
    have hroot : path ≠ "" := (Pointer.parse_eq_error_iff.1 hparse).2.1
    have habove : Pointer.parent path = .error e := by
      rw [Pointer.parent, hparse]
      rfl
    rw [climb_of_error hroot habove, paths, hparse]
    rfl
  | ok segments =>
    obtain ⟨touched, hclimb, htouched⟩ := exists_climb_of_parse hparse
    obtain ⟨dirty, hdirty⟩ := exists_paths_iff.2 ⟨segments, hparse⟩
    rw [hclimb, hdirty]
    refine congrArg Except.ok (SortedSet.eq_of_has_iff fun q => ?_)
    rw [has_paths_iff hparse hdirty, has_addDependents_iff, htouched, or_assoc]

/-- For a pointer with its segments written out the touched paths are its prefixes and the
dependents. -/
theorem has_paths_build_iff {segments : List String} {deps : ConditionalDeps} {dirty : SortedSet}
    {q : String} (h : paths (Pointer.build segments) deps = .ok dirty) :
    SortedSet.has q dirty = true ↔
      (∃ upper, upper <+: segments ∧ q = Pointer.build upper) ∨
        deps.Notes (Pointer.build segments) q := by
  rw [paths_eq_climb] at h
  obtain ⟨touched, hclimb, htouched⟩ := exists_climb_build segments
    (SortedSet.add (Pointer.build segments) .empty)
  rw [hclimb] at h
  obtain rfl : addDependents (Pointer.build segments) deps touched = dirty := Except.ok.inj h
  rw [has_addDependents_iff, htouched, has_singleton_iff]
  refine or_congr_left ?_
  constructor
  · rintro (rfl | ⟨upper, hupper, -, rfl⟩)
    · exact ⟨segments, List.prefix_refl _, rfl⟩
    · exact ⟨upper, hupper, rfl⟩
  · rintro ⟨upper, hupper, rfl⟩
    by_cases heq : upper = segments
    · exact Or.inl (congrArg Pointer.build heq)
    · exact Or.inr ⟨upper, hupper, heq, rfl⟩

/-- The paths that an edit touches, and what they affect. The climb that finds them ends for every
text, and there are none exactly if the text is no pointer, which the error names. For a pointer with
its segments written out they are the pointers of all prefixes of the segments and the dependents
noted under it, and they affect what is a prefix or a dependent or lies above a dependent. -/
theorem paths_exact (path : String) (deps : ConditionalDeps) :
    Recursion.EndsBy Above (fun place => Pointer.slashes place.1) round climb ∧
      paths path deps =
        (climb (path, SortedSet.add path .empty)).map (addDependents path deps) ∧
      (∀ e, paths path deps = .error e ↔
        e = .invalidPointer path ∧ path ≠ "" ∧ ¬ Pointer.StartsWithSlash path) ∧
      ∀ segments, ∃ dirty, paths (Pointer.build segments) deps = .ok dirty ∧
        (∀ q, SortedSet.has q dirty = true ↔
          (∃ upper, upper <+: segments ∧ q = Pointer.build upper) ∨
            deps.Notes (Pointer.build segments) q) ∧
        ∀ others, affects (Pointer.build others) dirty = true ↔
          others <+: segments ∨ ∃ q, deps.Notes (Pointer.build segments) q ∧
            (q = Pointer.build others ∨ Pointer.isDescendant (Pointer.build others) q = true) := by
  refine ⟨endsBy_climb, paths_eq_climb path deps, fun e => paths_eq_error_iff, fun segments => ?_⟩
  obtain ⟨dirty, hdirty⟩ := exists_paths_build segments deps
  have hhas := fun q => has_paths_build_iff (q := q) hdirty
  refine ⟨dirty, hdirty, hhas, fun others => ?_⟩
  rw [affects_iff]
  constructor
  · rintro ⟨touched, htouched, hpath⟩
    rcases (hhas touched).1 htouched with ⟨upper, hupper, rfl⟩ | hnoted
    · exact Or.inl ((Pointer.prefix_of_atOrAbove hpath).trans hupper)
    · exact Or.inr ⟨touched, hnoted, hpath.imp_left Eq.symm⟩
  · rintro (hothers | ⟨q, hnoted, hq⟩)
    · exact ⟨Pointer.build others, (hhas _).2 (Or.inl ⟨others, hothers, rfl⟩), Or.inl rfl⟩
    · exact ⟨q, (hhas q).2 (Or.inr hnoted), hq.imp_left Eq.symm⟩

end Dirty
end SchemaForm
