import SchemaForm.Proofs.Json.Write

/-!
# Removing an entry

A removal replaces the object or array in which the entry stands by the same one without the entry,
and keeps everything around it. Where there is no entry it keeps the document. An entry that a write
has added to an object or array is removed without a trace.
-/

namespace SchemaForm.Json

variable {v c : Json} {pointer segment : String} {segments front rest : List String}

/-! ### Documents that differ in one place -/

/-- The second document is the first one with another value at the segments: on the way there the
other members and elements are the same, in the same order. -/
inductive ReplacedAt (old new : Json) : List String → Json → Json → Prop where
  | here : ReplacedAt old new [] old new
  | member {key : String} {rest : List String} {before after : Fields} {child written : Json}
      (first : key ∉ Entries.keys before) (inside : ReplacedAt old new rest child written) :
      ReplacedAt old new (key :: rest) (.obj (before ++ (key, child) :: after))
        (.obj (before ++ (key, written) :: after))
  | element {segment : String} {rest : List String} {before after : List Json}
      {child written : Json} (index : Pointer.index? segment = some before.length)
      (inside : ReplacedAt old new rest child written) :
      ReplacedAt old new (segment :: rest) (.arr (before ++ child :: after))
        (.arr (before ++ written :: after))

/-- A write over a value that is there replaces that value and nothing else. -/
theorem replacedAt_of_setSegments {old new document : Json}
    (hfound : atSegments? (some v) segments = some old)
    (h : setSegments pointer new segments v = .ok document) :
    ReplacedAt old new segments v document := by
  induction segments generalizing v document with
  | nil =>
    cases hfound
    cases h
    exact .here
  | cons segment rest ih =>
    obtain ⟨child, hchild, hold⟩ := exists_child_of_atSegments? hfound
    obtain ⟨put, written, hput, hwritten, rfl⟩ := setSegments_cons_eq_ok_iff.1 h
    rw [hchild, Option.getD_some] at hwritten
    have hinside := ih hold hwritten
    cases v with
    | arr items =>
      obtain ⟨i, hi, hindex, rfl⟩ := putter?_arr_eq_some_iff.1 hput
      have hitem : items[i]? = some child := by simpa [child?, hindex] using hchild
      obtain ⟨hlt, rfl⟩ := List.getElem?_eq_some_iff.1 hitem
      have hlength : Pointer.index? segment = some (items.take i).length := by
        rw [hindex, List.length_take, Nat.min_eq_left hi]
      have hreplaced : ReplacedAt old new (segment :: rest)
          (.arr (items.take i ++ items[i] :: items.drop (i + 1)))
          (.arr (items.take i ++ written :: items.drop (i + 1))) := .element hlength hinside
      rwa [← List.drop_eq_getElem_cons hlt, List.take_append_drop] at hreplaced
    | obj entries =>
      cases hput
      obtain ⟨before, after, rfl, hfirst⟩ := Entries.exists_split_of_get? hchild
      dsimp only
      rw [Entries.insert_append_cons hfirst]
      exact .member hfirst hinside
    | _ => cases hchild

/-! ### One segment -/

/-- Where a segment selects nothing there is nothing to remove behind it. -/
theorem eraseSegments_of_child?_eq_none (h : child? segment v = none) (rest : List String) :
    eraseSegments (segment :: rest) v = v := by
  cases v with
  | arr items =>
    rw [eraseSegments]
    rw [child?] at h
    cases hindex : Pointer.index? segment with
    | none => rfl
    | some i =>
      rw [hindex, Option.bind_some] at h
      dsimp only
      rw [h]
  | obj entries =>
    rw [child?] at h
    cases rest with
    | nil => rw [eraseSegments, Entries.erase_of_notMem (Entries.get?_eq_none_iff.1 h)]
    | cons next rest =>
      rw [eraseSegments, h]
      simp
  | _ => cases rest <;> rfl

/-- Behind more segments the removal goes on in the child, which is put back. -/
theorem eraseSegments_cons {put : Json → Json} (h : child? segment v = some c)
    (hput : putter? segment v = some put) (hrest : rest ≠ []) :
    eraseSegments (segment :: rest) v = put (eraseSegments rest c) := by
  cases v with
  | arr items =>
    obtain ⟨i, hindex, hitem⟩ := Option.bind_eq_some_iff.1 h
    rw [putter?, hindex, Option.bind_some] at hput
    obtain ⟨hlt, -⟩ := List.getElem?_eq_some_iff.1 hitem
    rw [if_pos hlt] at hput
    cases hput
    have hmore : rest.isEmpty = false := List.isEmpty_eq_false_iff.2 hrest
    simp [eraseSegments, hindex, hitem, hmore]
  | obj entries =>
    cases hput
    cases rest with
    | nil => exact absurd rfl hrest
    | cons next rest =>
      rw [child?] at h
      rw [eraseSegments, h]
      simp
  | _ => cases h

/-- A child that was added to an object or an array is removed without a trace. -/
theorem eraseSegments_put {put : Json → Json} (habsent : child? segment v = none)
    (hput : putter? segment v = some put) (hcontainer : v.isObj = true ∨ v.isArr = true)
    (c : Json) : eraseSegments [segment] (put c) = v := by
  cases v with
  | arr items =>
    obtain ⟨i, hi, hindex, rfl⟩ := putter?_arr_eq_some_iff.1 hput
    rw [child?, hindex, Option.bind_some, List.getElem?_eq_none_iff] at habsent
    obtain rfl : i = items.length := Nat.le_antisymm hi habsent
    have hnone : items.drop (items.length + 1) = [] := List.drop_of_length_le (Nat.le_succ _)
    simp [eraseSegments, hindex, hnone, List.eraseIdx_append_of_length_le]
  | obj entries =>
    cases hput
    dsimp only
    rw [eraseSegments,
      Entries.erase_insert_of_notMem (Entries.get?_eq_none_iff.1 habsent)]
  | _ => simp [isObj, isArr] at hcontainer

/-! ### Segments -/

/-- A removal behind segments that select nothing keeps the value. -/
theorem eraseSegments_of_atSegments?_eq_none (h : atSegments? (some v) segments = none) :
    eraseSegments segments v = v := by
  induction segments generalizing v with
  | nil => cases h
  | cons segment rest ih =>
    rw [atSegments?_cons, Option.bind_some] at h
    cases hchild : child? segment v with
    | none => exact eraseSegments_of_child?_eq_none hchild rest
    | some child =>
      rw [hchild] at h
      have hrest : rest ≠ [] := by
        rintro rfl
        cases h
      obtain ⟨put, hput, hback⟩ := exists_putter?_of_child? hchild
      rw [eraseSegments_cons hchild hput hrest, ih h, hback]

/-- A removal behind more segments removes from what the first of them lead to, and the outcome is
what is written there. -/
theorem setSegments_eraseSegments (pointer : String) {parent : Json}
    (hparent : atSegments? (some v) front = some parent) (hrest : rest ≠ []) :
    setSegments pointer (eraseSegments rest parent) front v =
      .ok (eraseSegments (front ++ rest) v) := by
  induction front generalizing v with
  | nil =>
    cases hparent
    rfl
  | cons segment front ih =>
    obtain ⟨child, hchild, hbelow⟩ := exists_child_of_atSegments? hparent
    obtain ⟨put, hput, -⟩ := exists_putter?_of_child? hchild
    have hmore : front ++ rest ≠ [] := List.append_ne_nil_of_right_ne_nil front hrest
    refine setSegments_cons_eq_ok_iff.2 ⟨put, eraseSegments (front ++ rest) child, hput, ?_, ?_⟩
    · rw [hchild, Option.getD_some]
      exact ih hbelow
    · rw [List.cons_append, eraseSegments_cons hchild hput hmore]

/-- A removal replaces the value in which the entry stands and nothing else. No write fails here, so
the name of its pointer is of no account. -/
theorem replacedAt_eraseSegments {parent : Json}
    (hparent : atSegments? (some v) front = some parent) (hrest : rest ≠ []) :
    ReplacedAt parent (eraseSegments rest parent) front v (eraseSegments (front ++ rest) v) :=
  replacedAt_of_setSegments hparent (setSegments_eraseSegments "" hparent hrest)

/-- An entry that a write has added to an object or an array is removed without a trace. -/
theorem eraseSegments_setSegments {parent value document : Json}
    (hparent : atSegments? (some v) front = some parent)
    (hcontainer : parent.isObj = true ∨ parent.isArr = true)
    (habsent : child? segment parent = none)
    (h : setSegments pointer value (front ++ [segment]) v = .ok document) :
    eraseSegments (front ++ [segment]) document = v := by
  have h' : setSegments pointer value (front ++ [segment]) ((some v).getD .null) = .ok document := h
  obtain ⟨written, hwritten, hfront⟩ := setSegments_append_eq_ok_iff.1 h'
  rw [hparent, Option.getD_some] at hwritten
  rw [Option.getD_some] at hfront
  obtain ⟨put, child, hput, -, rfl⟩ := setSegments_cons_eq_ok_iff.1 hwritten
  -- The removal writes the parent as it was over the one that has the entry.
  have hsegment : [segment] ≠ [] := List.cons_ne_nil segment []
  have herased := setSegments_eraseSegments pointer (atSegments?_setSegments hfront) hsegment
  rw [eraseSegments_put habsent hput hcontainer, setSegments_setSegments hfront,
    setSegments_of_atSegments? pointer hparent] at herased
  exact (Except.ok.inj herased).symm

/-! ### Pointers -/

theorem eraseAt_of_parse (h : Pointer.parse pointer = .ok (front ++ [segment]))
    (data : Option Json) :
    eraseAt data pointer = .ok (data.map (eraseSegments (front ++ [segment]))) := by
  rw [eraseAt, h]
  cases front with
  | nil => rfl
  | cons first front => rfl

/-- A removal at a pointer other than the root always succeeds. It keeps data in which there is no
entry; it takes one member out of an object, where the others keep their order, or one element out of
an array, where the later ones move up, and replaces nothing else; and it undoes a write that has
added an entry to an object or an array. -/
theorem eraseAt_removes_entry (v : Json)
    (hparse : Pointer.parse pointer = .ok (front ++ [segment])) :
    ∃ document, eraseAt (some v) pointer = .ok (some document) ∧
      (getAt (some v) pointer = .ok none → document = v) ∧
      (∀ entries, atSegments? (some v) front = some (.obj entries) →
        ReplacedAt (.obj entries) (.obj (entries.filter fun entry => entry.1 != segment)) front v
          document) ∧
      (∀ items i, atSegments? (some v) front = some (.arr items) →
        Pointer.index? segment = some i → i < items.length →
          ReplacedAt (.arr items) (.arr (items.take i ++ items.drop (i + 1))) front v document) ∧
      ∀ parent value written, getAt (some v) pointer = .ok none →
        atSegments? (some v) front = some parent → parent.isObj = true ∨ parent.isArr = true →
          setAt (some v) pointer value = .ok written →
            eraseAt (some written) pointer = .ok (some v) := by
  have hsegment : [segment] ≠ [] := List.cons_ne_nil segment []
  refine ⟨eraseSegments (front ++ [segment]) v, eraseAt_of_parse hparse (some v), ?_, ?_, ?_, ?_⟩
  · intro habsent
    rw [getAt_of_parse hparse] at habsent
    exact eraseSegments_of_atSegments?_eq_none (Except.ok.inj habsent)
  · intro entries hparent
    exact replacedAt_eraseSegments hparent hsegment
  · intro items i hparent hindex hlt
    have herased : eraseSegments [segment] (.arr items) =
        .arr (items.take i ++ items.drop (i + 1)) := by
      simp [eraseSegments, hindex, hlt, List.eraseIdx_eq_take_drop_succ]
    rw [← herased]
    exact replacedAt_eraseSegments hparent hsegment
  · intro parent value written habsent hparent hcontainer hset
    rw [getAt_of_parse hparse, atSegments?_append, hparent] at habsent
    rw [setAt_of_parse hparse, Option.getD_some] at hset
    rw [eraseAt_of_parse hparse, Option.map_some,
      eraseSegments_setSegments hparent hcontainer (Except.ok.inj habsent) hset]

/-- The document of `twoMembers` with the second element left in its array. -/
def oneLeft : Json := .obj [("b", .null), ("a", .arr [int 2])]

/-- The document of `twoMembers` with a third element in its array. -/
def threeHeld : Json := .obj [("b", .null), ("a", .arr [int 1, int 2, int 3])]

/-- The first element of the array is removed, and so is a third one that was appended. -/
theorem eraseAt_removes_entry_element :
    eraseAt (some (twoMembers 2)) "/a/0" = .ok (some oneLeft) ∧
      ReplacedAt (.arr [int 1, int 2]) (.arr [int 2]) ["a"] (twoMembers 2) oneLeft ∧
      setAt (some (twoMembers 2)) "/a/2" (int 3) = .ok threeHeld ∧
      eraseAt (some threeHeld) "/a/2" = .ok (some (twoMembers 2)) := by
  have hfirst : Pointer.parse "/a/0" = .ok (["a"] ++ ["0"]) := rfl
  have hthird : Pointer.parse "/a/2" = .ok (["a"] ++ ["2"]) := rfl
  have herased : eraseAt (some (twoMembers 2)) "/a/0" = .ok (some oneLeft) := rfl
  have hwritten : setAt (some (twoMembers 2)) "/a/2" (int 3) = .ok threeHeld := rfl
  obtain ⟨document, hdocument, -, -, helement, -⟩ := eraseAt_removes_entry (twoMembers 2) hfirst
  obtain ⟨-, -, -, -, -, hundo⟩ := eraseAt_removes_entry (twoMembers 2) hthird
  obtain rfl : document = oneLeft := by
    rw [herased] at hdocument
    exact (Option.some.inj (Except.ok.inj hdocument)).symm
  exact ⟨herased, helement [int 1, int 2] 0 rfl rfl (by decide), hwritten,
    hundo _ _ _ rfl rfl (Or.inr rfl) hwritten⟩

end SchemaForm.Json
