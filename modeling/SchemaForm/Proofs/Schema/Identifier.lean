import SchemaForm.Proofs.Json.Integers
import SchemaForm.Proofs.Schema.Match
import SchemaForm.Proofs.Schema.Merge
import SchemaForm.Regex.Engine

/-!
# Integer identifiers in schemas

`const` and `enum` decide by equality of values, and so does the intersection of two enumerations.
For identifiers that are integers this is equality of 53 bits: a long integer is taken for each
other one that is rounded to the same double, an integer of at most 53 bits for no other.
-/

namespace SchemaForm.Schema

open Json

variable {a b : Json} {keywords : Fields}

theorem accepts_iff_roundedAlike_const [Patterns] (ha : a.IntegersOnly) (hb : b.IntegersOnly)
    (hconst : Entries.get? "const" keywords = some b) :
    accepts (.obj keywords) (some a) = true ↔ RoundedAlike a b := by
  rw [accepts_of_const hconst]
  exact equiv_iff_roundedAlike ha hb

theorem any_equiv_iff (ha : a.IntegersOnly) {options : List Json}
    (hoptions : ∀ option ∈ options, option.IntegersOnly) :
    options.any a.equiv = true ↔ ∃ option ∈ options, RoundedAlike a option := by
  rw [List.any_eq_true]
  constructor
  · rintro ⟨option, hmem, hequiv⟩
    exact ⟨option, hmem, (equiv_iff_roundedAlike ha (hoptions option hmem)).1 hequiv⟩
  · rintro ⟨option, hmem, halike⟩
    exact ⟨option, hmem, (equiv_iff_roundedAlike ha (hoptions option hmem)).2 halike⟩

/-- Where both schemas list options, the options of the first that equal one of the second stay. -/
theorem getItems?_enum_merge {left : Fields} {right : Document} {xs ys : List Json}
    (hxs : (Json.obj left).getItems? "enum" = some xs)
    (hys : (right : Json).getItems? "enum" = some ys) :
    (merge (.obj left) right).getItems? "enum" = some (xs.filter fun x => ys.any x.equiv) := by
  obtain ⟨u, hu, hxs⟩ := Option.bind_eq_some_iff.1 hxs
  obtain ⟨v, hv, hys⟩ := Option.bind_eq_some_iff.1 hys
  obtain ⟨fields, hfields, hunique⟩ := Document.exists_members (isObj_of_get? hv)
  rw [hfields] at hv ⊢
  have hu : Entries.get? "enum" left = some u := hu
  have hv : Entries.get? "enum" fields = some v := hv
  cases u with
  | arr xs' =>
    cases v with
    | arr ys' =>
      cases hxs
      cases hys
      rw [merge]
      show (Entries.get? "enum" (mergeKeywords left fields)).bind items? = _
      rw [get?_mergeKeywords hunique.nodup, hu, hv, joined_of_mergeValue (by decide) (by decide)]
      rfl
    | _ => cases hys
  | _ => cases hxs

/-- Integers are told apart by their 53 leading bits: in a comparison of values, in `const`, in
`enum` and where two enumerations are intersected. Those of at most 53 bits are told apart from all.
-/
theorem integers_told_apart_by_53_bits [Patterns] (ha : a.IntegersOnly) (hb : b.IntegersOnly) :
    (a.equiv b = true ↔ RoundedAlike a b) ∧
      (a.EveryNumber Number.Short ∨ b.EveryNumber Number.Short →
        (RoundedAlike a b ↔ Reordered a b)) ∧
      (∀ keywords : Fields, Entries.get? "const" keywords = some b →
        (accepts (.obj keywords) (some a) = true ↔ RoundedAlike a b)) ∧
      (∀ (keywords : Fields) (options : List Json), Entries.get? "const" keywords = none →
        (Json.obj keywords).getItems? "enum" = some options →
        (∀ option ∈ options, option.IntegersOnly) →
        (accepts (.obj keywords) (some a) = true ↔ ∃ option ∈ options, RoundedAlike a option)) ∧
      ∀ (left : Fields) (right : Document) (xs ys : List Json),
        (Json.obj left).getItems? "enum" = some xs → (right : Json).getItems? "enum" = some ys →
        (∀ y ∈ ys, y.IntegersOnly) →
        ∃ zs, (merge (.obj left) right).getItems? "enum" = some zs ∧
          (a ∈ zs ↔ a ∈ xs ∧ ∃ y ∈ ys, RoundedAlike a y) := by
  refine ⟨equiv_iff_roundedAlike ha hb, roundedAlike_iff_reordered ha hb, ?_, ?_, ?_⟩
  · exact fun keywords => accepts_iff_roundedAlike_const ha hb
  · intro keywords options hconst henum hoptions
    rw [accepts_of_enum hconst henum]
    exact any_equiv_iff ha hoptions
  · intro left right xs ys hxs hys hintegers
    refine ⟨_, getItems?_enum_merge hxs hys, ?_⟩
    rw [List.mem_filter, any_equiv_iff ha hintegers]

theorem integersOnly_int {n : Int} (hleast : Number.minInt ≤ n) (hgreatest : n ≤ Number.maxInt) :
    (int n).IntegersOnly :=
  ⟨.num _, .num ⟨hleast, hgreatest⟩⟩

/-- The greatest identifier of 53 bits is told apart from the next one. -/
theorem integers_told_apart_greatestShort :
    (int 9007199254740991).IntegersOnly ∧ (int 9007199254740992).IntegersOnly ∧
      (int 9007199254740991).equiv (int 9007199254740992) = false := by
  have ha : (int 9007199254740991).IntegersOnly := integersOnly_int (by decide) (by decide)
  have hb : (int 9007199254740992).IntegersOnly := integersOnly_int (by decide) (by decide)
  obtain ⟨hequiv, hshort, -⟩ := integers_told_apart_by_53_bits ha hb
  have hbits : (9007199254740991 : Int).natAbs < Nat.pow 2 53 := by decide
  refine ⟨ha, hb, Bool.eq_false_iff.2 fun h => ?_⟩
  have hreordered := (hshort (.inl (.num hbits))).1 (hequiv.1 h)
  cases hreordered with
  | num hsame => exact absurd hsame (by decide)

/-- The next identifier has 54 bits, and is taken for the one after it. -/
theorem integers_confused_leastLong :
    (int 9007199254740992).equiv (int 9007199254740993) = true ∧
      ¬ Reordered (int 9007199254740992) (int 9007199254740993) := by
  constructor
  · have ha : (int 9007199254740992).IntegersOnly := integersOnly_int (by decide) (by decide)
    have hb : (int 9007199254740993).IntegersOnly := integersOnly_int (by decide) (by decide)
    exact (equiv_iff_roundedAlike ha hb).2 (.num (by decide +kernel))
  · intro h
    cases h with
    | num hsame => exact absurd hsame (by decide)

end SchemaForm.Schema
