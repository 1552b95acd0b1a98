import SchemaForm.Proofs.Pipeline.Conditional
import SchemaForm.Store.Dirty

/-!
# What an edit affects

The dependents of a path are the path or lie above it, so the paths that an edit affects are its own
path, what lies above it, and the pointers of the proper prefixes of its segments. For a pointer
with its segments written out the last two are the same.
-/

namespace SchemaForm

namespace Pointer

/-- The prefixes without the last segment are the root and the pointers of fewer segments. -/
theorem mem_ofPrefixes_dropLast_iff {segments : List String} {pointer : String} :
    pointer ∈ ofPrefixes segments.dropLast ↔
      pointer = "" ∨ ∃ n < segments.length, pointer = build (segments.take n) := by
  unfold ofPrefixes
  rw [List.mem_map]
  constructor
  · rintro ⟨n, hn, rfl⟩
    rw [List.mem_range, List.length_dropLast] at hn
    by_cases hempty : segments = []
    · subst hempty
      exact Or.inl (by rw [List.dropLast_nil, List.take_nil, build_nil])
    · have hpos := List.length_pos_iff.2 hempty
      refine Or.inr ⟨n, by omega, ?_⟩
      rw [List.dropLast_eq_take, List.take_take, Nat.min_eq_left (by omega)]
  · rintro (rfl | ⟨n, hn, rfl⟩)
    · exact ⟨0, List.mem_range.2 (Nat.zero_lt_succ _), by rw [List.take_zero, build_nil]⟩
    · refine ⟨n, ?_, ?_⟩
      · rw [List.mem_range, List.length_dropLast]
        omega
      · rw [List.dropLast_eq_take, List.take_take, Nat.min_eq_left (by omega)]

/-- What lies above one of the prefixes is one of them too. -/
theorem mem_ofPrefixes_of_isDescendant {segments : List String} {above pointer : String}
    (hmem : pointer ∈ ofPrefixes segments.dropLast) (h : isDescendant above pointer = true) :
    above ∈ ofPrefixes segments.dropLast := by
  rw [mem_ofPrefixes_dropLast_iff] at hmem ⊢
  rcases hmem with rfl | ⟨n, hn, rfl⟩
  · obtain ⟨m, hm, -⟩ := isDescendant_build_iff.1 (build_nil ▸ h)
    exact absurd hm (Nat.not_lt_zero m)
  · obtain ⟨m, hm, rfl⟩ := isDescendant_build_iff.1 h
    rw [List.length_take] at hm
    refine Or.inr ⟨m, by omega, ?_⟩
    rw [List.take_take, Nat.min_eq_left (by omega)]

/-- The prefixes of a written-out pointer, as it is read, are the pointer or lie above it. -/
theorem isDescendant_of_mem_ofPrefixes {segments parsed : List String} {pointer : String}
    (hparse : parse (build segments) = .ok parsed) (h : pointer ∈ ofPrefixes parsed.dropLast) :
    pointer = build segments ∨ isDescendant pointer (build segments) = true := by
  have hroot : pointer = "" → pointer = build segments ∨
      isDescendant pointer (build segments) = true := by
    rintro rfl
    by_cases hempty : build segments = ""
    · exact Or.inl hempty.symm
    · exact Or.inr (isDescendant_empty_iff.2 hempty)
  by_cases hslash : segments = [""]
  · -- A lone slash is read as the root, which has no segments.
    subst hslash
    rw [parse_slash] at hparse
    cases hparse
    rcases mem_ofPrefixes_dropLast_iff.1 h with hempty | ⟨n, hn, -⟩
    · exact hroot hempty
    · exact absurd hn (Nat.not_lt_zero n)
  · rw [parse_build hslash] at hparse
    cases hparse
    rcases mem_ofPrefixes_dropLast_iff.1 h with hempty | hlower
    · exact hroot hempty
    · exact Or.inr (isDescendant_build_iff.2 hlower)

/-- No written-out pointer but the root is among the prefixes without its last segment. -/
theorem notMem_ofPrefixes_dropLast {segments parsed : List String}
    (hparse : parse (build segments) = .ok parsed) (hroot : build segments ≠ "") :
    build segments ∉ ofPrefixes parsed.dropLast := by
  intro hmem
  rcases mem_ofPrefixes_dropLast_iff.1 hmem with hempty | ⟨n, hn, heq⟩
  · exact hroot hempty
  · by_cases hslash : segments = [""]
    · subst hslash
      rw [parse_slash] at hparse
      cases hparse
      exact Nat.not_lt_zero n hn
    · rw [parse_build hslash] at hparse
      cases hparse
      have hlength := congrArg List.length (build_injective heq)
      rw [List.length_take] at hlength
      omega

end Pointer

namespace Dirty

theorem affects_iff {path : String} {dirty : SortedSet} :
    affects path dirty = true ↔
      ∃ touched, SortedSet.has touched dirty = true ∧
        (path = touched ∨ Pointer.isDescendant path touched = true) := by
  unfold affects
  rw [Bool.or_eq_true, List.any_eq_true]
  constructor
  · rintro (h | ⟨touched, hmem, h⟩)
    · exact ⟨path, h, Or.inl rfl⟩
    · exact ⟨touched, SortedSet.mem_toList_iff.1 hmem, Or.inr h⟩
  · rintro ⟨touched, h, rfl | hbelow⟩
    · exact Or.inl h
    · exact Or.inr ⟨touched, SortedSet.mem_toList_iff.2 h, hbelow⟩

/-- The touched paths are known if and only if the pointer can be read. -/
theorem exists_paths_iff {changed : String} {deps : ConditionalDeps} :
    (∃ dirty, paths changed deps = .ok dirty) ↔
      ∃ segments, Pointer.parse changed = .ok segments := by
  unfold paths
  cases Pointer.parse changed with
  | error e =>
    constructor
    · rintro ⟨dirty, h⟩
      cases h
    · rintro ⟨segments, h⟩
      cases h
  | ok segments => exact ⟨fun _ => ⟨segments, rfl⟩, fun _ => ⟨_, rfl⟩⟩

variable {changed path : String} {segments : List String} {deps : ConditionalDeps}
  {dirty : SortedSet}

/-- An edit touches its path, the prefixes of its segments, and what is noted under its path. -/
theorem has_paths_iff (hparse : Pointer.parse changed = .ok segments)
    (h : paths changed deps = .ok dirty) :
    SortedSet.has path dirty = true ↔
      path = changed ∨ path ∈ Pointer.ofPrefixes segments.dropLast ∨ deps.Notes changed path := by
  unfold paths at h
  rw [hparse] at h
  cases h
  rw [SortedSet.has_ofList_iff, List.mem_append, List.mem_cons, or_assoc]
  have hnoted : path ∈ ((SortedMap.get? changed deps).map SortedSet.toList).getD [] ↔
      deps.Notes changed path := by
    unfold ConditionalDeps.Notes
    cases SortedMap.get? changed deps with
    | none => simp
    | some dependents => simp [SortedSet.mem_toList_iff]
  rw [hnoted]

/-- An edit affects its path, what lies above it, and the prefixes of its segments. -/
theorem affects_paths_iff (hparse : Pointer.parse changed = .ok segments) (hdeps : deps.Upward)
    (h : paths changed deps = .ok dirty) :
    affects path dirty = true ↔
      path = changed ∨ Pointer.isDescendant path changed = true ∨
        path ∈ Pointer.ofPrefixes segments.dropLast := by
  rw [affects_iff]
  constructor
  · rintro ⟨touched, htouched, hpath⟩
    rcases (has_paths_iff hparse h).1 htouched with rfl | hprefix | hnoted
    · exact hpath.imp_right Or.inl
    · rcases hpath with rfl | hbelow
      · exact Or.inr (Or.inr hprefix)
      · exact Or.inr (Or.inr (Pointer.mem_ofPrefixes_of_isDescendant hprefix hbelow))
    · rcases hdeps changed touched hnoted with rfl | hup
      · exact hpath.imp_right Or.inl
      · rcases hpath with rfl | hbelow
        · exact Or.inr (Or.inl hup)
        · exact Or.inr (Or.inl (Pointer.isDescendant_trans hbelow hup))
  · rintro (rfl | hbelow | hprefix)
    · exact ⟨path, (has_paths_iff hparse h).2 (Or.inl rfl), Or.inl rfl⟩
    · exact ⟨changed, (has_paths_iff hparse h).2 (Or.inl rfl), Or.inr hbelow⟩
    · exact ⟨path, (has_paths_iff hparse h).2 (Or.inr (Or.inl hprefix)), Or.inl rfl⟩

/-- Among the written-out pointers, an edit affects its own and those of proper prefixes of its
segments. -/
theorem affects_build_iff {above : List String} (hparse : Pointer.parse changed = .ok segments)
    (hdeps : deps.Upward) (h : paths changed deps = .ok dirty) :
    affects (Pointer.build above) dirty = true ↔
      Pointer.build above = changed ∨
        Pointer.build above ∈ Pointer.ofPrefixes segments.dropLast := by
  rw [affects_paths_iff hparse hdeps h]
  constructor
  · rintro (heq | hbelow | hprefix)
    · exact Or.inl heq
    · right
      rw [Pointer.mem_ofPrefixes_dropLast_iff]
      rcases Pointer.eq_take_of_isDescendant hparse hbelow with rfl | ⟨n, hn, rfl⟩
      · exact Or.inl Pointer.build_nil
      · exact Or.inr ⟨n, hn, rfl⟩
    · exact Or.inr hprefix
  · rintro (heq | hprefix)
    · exact Or.inl heq
    · exact Or.inr (Or.inr hprefix)

/-- An edit at a written-out pointer affects the pointer and what lies above it. -/
theorem affects_paths_build_iff (hdeps : deps.Upward)
    (h : paths (Pointer.build segments) deps = .ok dirty) :
    affects path dirty = true ↔
      path = Pointer.build segments ∨
        Pointer.isDescendant path (Pointer.build segments) = true := by
  obtain ⟨parsed, hparse⟩ := exists_paths_iff.1 ⟨dirty, h⟩
  rw [affects_paths_iff hparse hdeps h]
  constructor
  · rintro (heq | hbelow | hprefix)
    · exact Or.inl heq
    · exact Or.inr hbelow
    · exact Pointer.isDescendant_of_mem_ofPrefixes hparse hprefix
  · exact Or.imp_right Or.inl

end Dirty
end SchemaForm
