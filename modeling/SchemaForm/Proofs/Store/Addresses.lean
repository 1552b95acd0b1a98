import SchemaForm.Proofs.Json.Write
import SchemaForm.Proofs.Pipeline.Rendering
import SchemaForm.Proofs.Store.Spelling

/-!
# Where the fields of a form are written

Every field stands at a canonical pointer, so it is read back as the segments that it was built
from. Main statement: two fields of a form have different segments, but for the root and the field
of a root property without a name, whose pointer is the second spelling of the root. Where the
segments lead apart, a write through the one field leaves what is read at the other.
-/

namespace SchemaForm

open Json

namespace Pointer

/-- Of the canonical pointers only the lone slash is not read back as it was built. -/
theorem parse_build_cases (segments : List String) :
    parse (build segments) = .ok segments ∨ segments = [""] ∧ parse (build segments) = .ok [] := by
  by_cases h : segments = [""]
  · subst h
    exact Or.inr ⟨rfl, parse_slash⟩
  · exact Or.inl (parse_build h)

theorem exists_parse_build (segments : List String) :
    ∃ found, parse (build segments) = .ok found := by
  rcases parse_build_cases segments with h | ⟨-, h⟩
  · exact ⟨segments, h⟩
  · exact ⟨[], h⟩

/-- Two canonical pointers with one reading are the two spellings of the root. -/
theorem parse_build_eq_iff {xs ys : List String} (hne : xs ≠ ys) :
    parse (build xs) = parse (build ys) ↔ xs = [] ∧ ys = [""] ∨ xs = [""] ∧ ys = [] := by
  constructor
  · intro heq
    rcases parse_build_cases xs with hx | ⟨rfl, hx⟩
    · rcases parse_build_cases ys with hy | ⟨rfl, hy⟩
      · rw [hx, hy] at heq
        exact absurd (Except.ok.inj heq) hne
      · rw [hx, hy] at heq
        exact Or.inl ⟨Except.ok.inj heq, rfl⟩
    · rcases parse_build_cases ys with hy | ⟨rfl, -⟩
      · rw [hx, hy] at heq
        exact Or.inr ⟨rfl, (Except.ok.inj heq).symm⟩
      · exact absurd rfl hne
  · rintro (⟨rfl, rfl⟩ | ⟨rfl, rfl⟩) <;> rfl

theorem build_eq_empty_iff {segments : List String} : build segments = "" ↔ segments = [] := by
  constructor
  · intro h
    have hbuild : build segments = build [] := h
    exact build_injective hbuild
  · rintro rfl
    rfl

theorem build_eq_slash_iff {segments : List String} : build segments = "/" ↔ segments = [""] := by
  constructor
  · intro h
    have hbuild : build segments = build [""] := h
    exact build_injective hbuild
  · rintro rfl
    rfl

end Pointer

namespace Store

open Defaults FieldTree Pipeline

/-- The fields of a form have addresses of their own, but for the root and the field of a root
property without a name, which is written as the root. A write through a field leaves what is read
at fields whose segments lead apart, and what is read at a field below is read from the value. -/
theorem fields_addressed_apart [Patterns] (schema : Json) (data : Option Json)
    (selections : Selections) : ∃ m, Pipeline.run .default schema data selections = .ok m ∧
      ∀ p q, m.index.contains p = true → m.index.contains q = true → p ≠ q →
        ∃ xs ys, Pointer.parse p = .ok xs ∧ Pointer.parse q = .ok ys ∧
          (xs = ys ↔ p = "" ∧ q = "/" ∨ p = "/" ∧ q = "") ∧
          ∀ before value after, setAt before p value = .ok after →
            (Pointer.Apart xs ys → getAt (some after) q = getAt before q) ∧
            ∀ rest, ys = xs ++ rest →
              getAt (some after) q = .ok (atSegments? (some value) rest) := by
  refine ⟨_, run_default schema data selections, ?_⟩
  intro p q hp hq hne
  obtain ⟨n, hn⟩ := SortedMap.contains_iff.1 hp
  obtain ⟨other, hother⟩ := SortedMap.contains_iff.1 hq
  obtain ⟨above, rfl⟩ := canonical_plainModel _ _ _ p n hn
  obtain ⟨beside, rfl⟩ := canonical_plainModel _ _ _ q other hother
  obtain ⟨xs, hxs⟩ := Pointer.exists_parse_build above
  obtain ⟨ys, hys⟩ := Pointer.exists_parse_build beside
  have hsegments : above ≠ beside := fun h => hne (congrArg Pointer.build h)
  refine ⟨xs, ys, hxs, hys, ?_, ?_⟩
  · rw [Pointer.build_eq_empty_iff, Pointer.build_eq_empty_iff, Pointer.build_eq_slash_iff,
      Pointer.build_eq_slash_iff, ← Pointer.parse_build_eq_iff hsegments, hxs, hys,
      Except.ok.injEq]
  · intro before value after hwrite
    obtain ⟨hapart, hbelow⟩ := getAt_setAt_frame before hxs hwrite
    refine ⟨hapart _ ys hys, ?_⟩
    rintro rest rfl
    exact hbelow _ rest hys

/-- The field of the property and those of the elements stand in the index. -/
theorem contains_eitherWith [Patterns] (name : String) (items : List Json) {path : String}
    (h : path = Pointer.append "" name ∨ ∃ i < items.length, path = Pointer.appendIndex "" i) :
    (plainModel (eitherWith name) (some (.arr items)) .empty).index.contains path = true := by
  have hform := sameForm_plainModel (eitherWith name) (some (.arr items)) .empty
  have hchild : path ∈ Pointer.append "" name ::
      (List.range items.length).map (Pointer.appendIndex "") := by
    rcases h with rfl | ⟨i, hi, rfl⟩
    · exact List.mem_cons_self
    · exact List.mem_cons_of_mem _ (List.mem_map_of_mem (List.mem_range.2 hi))
  obtain ⟨-, -, built, hbuilt⟩ := (closed_build _ _).child "" _
    (get?_plainIndex_eitherWith name items) path hchild
  obtain ⟨n, hn, -⟩ := hform.symm.exists_get? hbuilt
  exact SortedMap.contains_iff.2 ⟨n, hn⟩

/-- The field of a root property without a name has the segments of the root. And where an array has
a field for a property named `01`, a write through it replaces what stands at the field of the
second element, although the segments differ. -/
theorem fields_share_addresses :
    (∃ m, Pipeline.run .default (eitherWith "") (some (.arr [])) .empty = .ok m ∧
      m.index.contains "" = true ∧ m.index.contains "/" = true ∧
      Pointer.parse "" = Pointer.parse "/") ∧
    ∃ m, Pipeline.run .default (eitherWith "01") (some (.arr [int 1, int 2])) .empty = .ok m ∧
      m.index.contains "/01" = true ∧ m.index.contains "/1" = true ∧
      setAt (some (.arr [int 1, int 2])) "/01" (int 3) = .ok (.arr [int 1, int 3]) ∧
      getAt (some (.arr [int 1, int 2])) "/1" = .ok (some (int 2)) ∧
      getAt (some (.arr [int 1, int 3])) "/1" = .ok (some (int 3)) := by
  constructor
  · refine ⟨_, run_default _ _ _, ?_⟩
    rw [prepare_eitherWith]
    have hclosed := (sameForm_plainModel (eitherWith "") (some (.arr [])) .empty).closed
      (closed_build _ _)
    exact ⟨SortedMap.contains_iff.2 hclosed.root, contains_eitherWith "" [] (Or.inl rfl), rfl⟩
  · refine ⟨_, run_default _ _ _, ?_⟩
    rw [prepare_eitherWith]
    have hproperty := contains_eitherWith "01" [int 1, int 2] (Or.inl rfl)
    have helement := contains_eitherWith "01" [int 1, int 2] (Or.inr ⟨1, by decide, rfl⟩)
    exact ⟨hproperty, helement, rfl, rfl, rfl⟩

end Store
end SchemaForm
