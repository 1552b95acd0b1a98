import SchemaForm.Json.Size
import SchemaForm.Schema.Merge

/-!
# Merging never grows

A merged schema is no larger than its two parts together, and of two objects it is smaller, since
one object takes the place of two. Every recursion on merged schemas ends because of this.
-/

namespace SchemaForm.Schema

open Json

theorem size_ofList_le (items : List Json) : (ofList items).size ≤ 1 + sizeItems items := by
  unfold ofList
  split <;> simp only [sizeItems, size] <;> omega

theorem size_ofList_filter_asList_le (p : Json → Bool) (a : Json) :
    (ofList ((asList a).filter p)).size ≤ a.size := by
  cases a with
  | arr items =>
    have := size_ofList_le (items.filter p)
    have := sizeItems_filter_le p items
    simp only [asList, size]
    omega
  | _ =>
    simp only [asList, List.filter_cons, List.filter_nil]
    split <;> simp [ofList, size, sizeItems]

theorem size_mergeTypes_le (a : Option Json) (b : Json) :
    (mergeTypes a b).size ≤ sizeOpt a + b.size := by
  cases a with
  | none => simp [mergeTypes]
  | some a =>
    have := size_ofList_filter_asList_le (fun type => type.memberOf (asList b)) a
    simp only [mergeTypes, sizeOpt_some]
    omega

theorem sizeItems_addNames_le (names acc : List Json) :
    sizeItems (names.foldl
      (fun names name => if name.memberOf names then names else names ++ [name]) acc) ≤
      sizeItems acc + sizeItems names := by
  induction names generalizing acc with
  | nil => simp [sizeItems]
  | cons name names ih =>
    simp only [List.foldl_cons]
    refine Nat.le_trans (ih _) ?_
    split <;> simp only [sizeItems, sizeItems_append] <;> omega

theorem size_mergeNames_le (a : Option Json) (b : Json) :
    (mergeNames a b).size ≤ sizeOpt a + b.size := by
  have h := sizeItems_addNames_le (b.items?.getD []) ((a.bind Json.items?).getD [])
  have hb : sizeItems (b.items?.getD []) + 1 ≤ b.size := by
    cases b <;> simp only [Json.items?, Option.getD, sizeItems, size] <;> omega
  have ha : sizeItems ((a.bind Json.items?).getD []) ≤ sizeOpt a := by
    rcases a with _ | a
    · simp [sizeItems]
    · cases a <;> simp [Json.items?, sizeItems, size]
  simp only [mergeNames, size]
  omega

theorem sizeEntries_addLists_le (lists acc : Fields) :
    sizeEntries (lists.foldl
      (fun acc entry =>
        Entries.insert entry.1 (mergeNames (Entries.get? entry.1 acc) entry.2) acc) acc) ≤
      sizeEntries acc + sizeEntries lists := by
  induction lists generalizing acc with
  | nil => simp [sizeEntries]
  | cons head lists ih =>
    simp only [List.foldl_cons]
    refine Nat.le_trans (ih _) ?_
    have hi := weight_insert (fun _ => true) head.1
      (mergeNames (Entries.get? head.1 acc) head.2) acc
    have hm := size_mergeNames_le (Entries.get? head.1 acc) head.2
    simp only [weight_true, if_true] at hi
    simp only [sizeEntries]
    omega

theorem size_mergeNamesByName_le (a : Option Json) (b : Json) :
    (mergeNamesByName a b).size ≤ sizeOpt a + b.size := by
  cases b with
  | obj lists =>
    have h := sizeEntries_addLists_le lists (membersOf a)
    have ha : sizeEntries (membersOf a) ≤ sizeOpt a := by
      rcases a with _ | a
      · simp [membersOf, sizeEntries]
      · cases a <;> simp [membersOf, Json.fields?, sizeEntries, size]
    simp only [mergeNamesByName, size]
    omega
  | _ => simp [mergeNamesByName]

theorem size_mergeOptions_le (a : Option Json) (b : Json) :
    (mergeOptions a b).size ≤ sizeOpt a + b.size := by
  unfold mergeOptions
  split
  · next xs ys =>
    have := sizeItems_filter_le (fun x => ys.any x.equiv) xs
    simp only [size, sizeOpt_some]
    omega
  · omega

theorem size_mergeBound_le (tighter : Binary64 → Binary64 → Bool) (a : Option Json) (b : Json) :
    (mergeBound tighter a b).size ≤ sizeOpt a + b.size := by
  unfold mergeBound
  split
  · split <;> simp only [sizeOpt_some] <;> omega
  · omega

theorem size_mergeValue_le {rule : MergeRule} {a : Option Json} {b v : Json}
    (h : mergeValue rule a b = some v) : v.size ≤ sizeOpt a + b.size := by
  cases rule <;> simp only [mergeValue, Option.some.injEq] at h
  case types => exact h ▸ size_mergeTypes_le a b
  case names => exact h ▸ size_mergeNames_le a b
  case namesByName => exact h ▸ size_mergeNamesByName_le a b
  case options => exact h ▸ size_mergeOptions_le a b
  case lowerBound => exact h ▸ size_mergeBound_le _ a b
  case upperBound => exact h ▸ size_mergeBound_le _ a b
  case first =>
    split at h
    · simp at h
    · simp only [Option.some.injEq] at h; subst h; omega
  all_goals subst h; omega

theorem weight_insert_le {p : String → Bool} {key : String} {v b : Json} {acc : Fields}
    (h : v.size ≤ sizeOpt (Entries.get? key acc) + b.size) :
    weight p (Entries.insert key v acc) ≤ weight p acc + (if p key then b.size else 0) := by
  have hi := weight_insert p key v acc
  split at hi
  · simp_all; omega
  · simp_all

theorem sizeEntries_membersOf_le (a : Option Json) : sizeEntries (membersOf a) ≤ sizeOpt a := by
  rcases a with _ | a
  · simp [membersOf, sizeEntries]
  · cases a <;> simp [membersOf, Json.fields?, sizeEntries, size]

mutual

theorem size_merge_le (a : Json) : (b : Json) → (merge a b).size ≤ a.size + b.size
  | .obj b => by
    cases a with
    | obj a =>
      have h := weight_mergeKeywords_le (fun _ => true) a b
      simp only [weight_true] at h
      simp only [merge, size]
      omega
    | _ => simp [merge]
  | .null => by cases a <;> simp [merge]
  | .bool _ => by cases a <;> simp [merge]
  | .num _ => by cases a <;> simp [merge]
  | .str _ => by cases a <;> simp [merge]
  | .arr _ => by cases a <;> simp [merge]

theorem size_mergeJoined_le (rule : MergeRule) (a : Option Json) :
    (b : Json) → ∀ v, mergeJoined rule a b = some v → v.size ≤ sizeOpt a + b.size
  | .obj b => by
    intro v h
    simp only [mergeJoined] at h
    split at h
    · have hn := sizeEntries_mergeNamed_le (membersOf a) b
      have hm := sizeEntries_membersOf_le a
      cases h
      simp only [size]
      omega
    · next a =>
      have hk := weight_mergeKeywords_le (fun _ => true) a b
      simp only [weight_true] at hk
      cases h
      simp only [size, sizeOpt_some]
      omega
    · exact size_mergeValue_le h
  | .null => fun _ h => size_mergeValue_le (by simpa [mergeJoined] using h)
  | .bool _ => fun _ h => size_mergeValue_le (by simpa [mergeJoined] using h)
  | .num _ => fun _ h => size_mergeValue_le (by simpa [mergeJoined] using h)
  | .str _ => fun _ h => size_mergeValue_le (by simpa [mergeJoined] using h)
  | .arr _ => fun _ h => size_mergeValue_le (by simpa [mergeJoined] using h)

theorem weight_mergeKeywords_le (p : String → Bool) (acc : Fields) :
    (b : List (String × Json)) → weight p (mergeKeywords acc b) ≤ weight p acc + weight p b
  | [] => by simp [mergeKeywords, weight]
  | (keyword, b) :: rest => by
    simp only [mergeKeywords]
    refine Nat.le_trans (weight_mergeKeywords_le p _ rest) ?_
    simp only [weight]
    split
    · next v h =>
      have hv := size_mergeJoined_le (mergeRule keyword) (Entries.get? keyword acc) b v h
      have hi := weight_insert_le (p := p) hv
      omega
    · omega

theorem sizeEntries_mergeNamed_le (acc : Fields) :
    (b : List (String × Json)) → sizeEntries (mergeNamed acc b) ≤ sizeEntries acc + sizeEntries b
  | [] => by simp [mergeNamed, sizeEntries]
  | (name, b) :: rest => by
    simp only [mergeNamed]
    refine Nat.le_trans (sizeEntries_mergeNamed_le _ rest) ?_
    have hm : ((Entries.get? name acc).elim b fun a => merge a b).size ≤
        sizeOpt (Entries.get? name acc) + b.size := by
      cases Entries.get? name acc with
      | none => simp
      | some a => simpa using size_merge_le a b
    have hi := weight_insert_le (p := fun _ => true) hm
    simp only [weight_true, if_true] at hi
    simp only [sizeEntries]
    omega

end

/-- What a schema adds to gathered keywords is bounded by its members. -/
theorem weight_absorb_lt (p : String → Bool) (acc : Fields) (b : Json) :
    weight p (absorb acc b) < weight p acc + b.size := by
  cases b with
  | obj b =>
    have := weight_mergeKeywords_le p acc b
    have := weight_le p b
    simp only [absorb, size]
    omega
  | _ => simp [absorb, size_pos]

theorem sizeEntries_absorb_lt (acc : Fields) (b : Json) :
    sizeEntries (absorb acc b) < sizeEntries acc + b.size := by
  simpa only [weight_true] using weight_absorb_lt (fun _ => true) acc b

end SchemaForm.Schema
