import SchemaForm.Proofs.Entries
import SchemaForm.Proofs.Json.Update

/-!
# Reading and writing at a pointer

A write goes down the segments and puts a child back at each of them. At one segment the three laws
of a lens hold: the child that was put is read, a second child takes the place of the first, and
putting back what is read changes nothing. They carry over to whole pointers, in documents of any
shape, and are equalities of values, so the order of members is part of them. The name of the pointer
is for errors only.
-/

namespace SchemaForm.Json

variable {segment : String} {v c : Json}

/-! ### One segment -/

/-- How a child is put at a segment of a value, if the segment can be written there. -/
def putter? (segment : String) : Json → Option (Json → Json)
  | .arr items =>
    (Pointer.index? segment).bind fun i =>
      if i < items.length then some fun child => .arr (items.set i child)
      else if i = items.length then some fun child => .arr (items ++ [child])
      else none
  | .obj entries => some fun child => .obj (Entries.insert segment child entries)
  | _ => some fun child => .obj [(segment, child)]

/-- A write at a segment writes into the child and puts it back. -/
theorem setSegments_cons (pointer : String) (value : Json) (segment : String)
    (rest : List String) (v : Json) :
    setSegments pointer value (segment :: rest) v =
      match putter? segment v with
      | none => .error (.invalidArrayIndex pointer segment)
      | some put =>
        (setSegments pointer value rest ((child? segment v).getD .null)).map put := by
  cases v with
  | arr items =>
    rw [setSegments, putter?, child?]
    cases hindex : Pointer.index? segment with
    | none => rfl
    | some i =>
      dsimp only [Option.bind_some]
      by_cases hlt : i < items.length
      · rw [if_pos hlt, if_pos hlt]
        rfl
      · have hnone : items[i]? = none := List.getElem?_eq_none (Nat.le_of_not_lt hlt)
        rw [if_neg hlt, if_neg hlt, hnone]
        by_cases heq : i = items.length
        · rw [if_pos heq, if_pos heq]
          rfl
        · rw [if_neg heq, if_neg heq]
  | _ => rfl

/-- A child is put into an array at the index of an element or of the place after the last. -/
theorem putter?_arr_eq_some_iff {items : List Json} {put : Json → Json} :
    putter? segment (.arr items) = some put ↔
      ∃ i ≤ items.length, Pointer.index? segment = some i ∧
        put = fun child => .arr (items.take i ++ child :: items.drop (i + 1)) := by
  rw [putter?]
  cases Pointer.index? segment with
  | none => simp
  | some i =>
    simp only [Option.bind_some, Option.some.injEq]
    by_cases hlt : i < items.length
    · simp [hlt, Nat.le_of_lt hlt, List.set_eq_take_append_cons_drop, eq_comm]
    · by_cases heq : i = items.length
      · simp [heq, eq_comm, List.drop_of_length_le]
      · have hgt : ¬ i ≤ items.length := by omega
        simp [hlt, heq, hgt]

/-- The child that was put is the one that is read. -/
theorem child?_put {put : Json → Json} (h : putter? segment v = some put) (c : Json) :
    child? segment (put c) = some c := by
  cases v with
  | arr items =>
    obtain ⟨i, hi, hindex, rfl⟩ := putter?_arr_eq_some_iff.1 h
    simp [child?, hindex, hi]
  | obj entries =>
    cases h
    simp [child?, Entries.get?_insert]
  | _ =>
    cases h
    simp [child?, Entries.get?_cons]

/-- Where a child was put, another one is put in the same way and takes its place. -/
theorem putter?_put {put : Json → Json} (h : putter? segment v = some put) (c : Json) :
    putter? segment (put c) = some put := by
  cases v with
  | arr items =>
    obtain ⟨i, hi, hindex, rfl⟩ := putter?_arr_eq_some_iff.1 h
    refine putter?_arr_eq_some_iff.2 ⟨i, by simp [hi], hindex, ?_⟩
    simp [List.drop_append, List.drop_take, hi]
  | obj entries =>
    cases h
    simp [putter?, Entries.insert_insert]
  | _ =>
    cases h
    simp [putter?, Entries.insert]

/-- A child that is read can be put back, and nothing changes. -/
theorem exists_putter?_of_child? (h : child? segment v = some c) :
    ∃ put, putter? segment v = some put ∧ put c = v := by
  cases v with
  | arr items =>
    obtain ⟨i, hindex, hitem⟩ := Option.bind_eq_some_iff.1 h
    obtain ⟨hlt, rfl⟩ := List.getElem?_eq_some_iff.1 hitem
    refine ⟨fun child => .arr (items.set i child), ?_, ?_⟩
    · simp [putter?, hindex, hlt]
    · simp
  | obj entries =>
    refine ⟨fun child => .obj (Entries.insert segment child entries), rfl, ?_⟩
    exact congrArg Json.obj (Entries.insert_of_get? h)
  | _ => cases h

/-! ### Segments -/

/-- A write at a segment succeeds if it succeeds in the child and the child can be put back. -/
theorem setSegments_cons_eq_ok_iff {pointer : String} {value document : Json}
    {rest : List String} :
    setSegments pointer value (segment :: rest) v = .ok document ↔
      ∃ put child, putter? segment v = some put ∧
        setSegments pointer value rest ((child? segment v).getD .null) = .ok child ∧
        put child = document := by
  rw [setSegments_cons]
  cases putter? segment v with
  | none => simp
  | some put =>
    cases setSegments pointer value rest ((child? segment v).getD .null) with
    | error e => simp [Except.map]
    | ok child => simp [Except.map]

/-- A write at a segment fails if no child can be put there or if it fails in the child. -/
theorem setSegments_cons_eq_error_iff {pointer : String} {value : Json} {rest : List String}
    {e : PathError} :
    setSegments pointer value (segment :: rest) v = .error e ↔
      (putter? segment v = none ∧ e = .invalidArrayIndex pointer segment) ∨
        putter? segment v ≠ none ∧
          setSegments pointer value rest ((child? segment v).getD .null) = .error e := by
  rw [setSegments_cons]
  cases putter? segment v with
  | none => simp [eq_comm]
  | some put =>
    cases setSegments pointer value rest ((child? segment v).getD .null) with
    | error e' => simp [Except.map]
    | ok child => simp [Except.map]

/-- What was written is read. -/
theorem atSegments?_setSegments {pointer : String} {value document : Json}
    {segments : List String} (h : setSegments pointer value segments v = .ok document) :
    atSegments? (some document) segments = some value := by
  induction segments generalizing v document with
  | nil =>
    cases h
    rfl
  | cons segment rest ih =>
    obtain ⟨put, child, hput, hchild, rfl⟩ := setSegments_cons_eq_ok_iff.1 h
    rw [atSegments?_cons, Option.bind_some, child?_put hput]
    exact ih hchild

/-- A second write overwrites the first. -/
theorem setSegments_setSegments {pointer : String} {value document : Json}
    {segments : List String} (h : setSegments pointer value segments v = .ok document)
    (other : Json) :
    setSegments pointer other segments document = setSegments pointer other segments v := by
  induction segments generalizing v document with
  | nil => rfl
  | cons segment rest ih =>
    obtain ⟨put, child, hput, hchild, rfl⟩ := setSegments_cons_eq_ok_iff.1 h
    rw [setSegments_cons, setSegments_cons, putter?_put hput, child?_put hput, hput]
    dsimp only
    rw [Option.getD_some, ih hchild]

/-- Writing what is read changes nothing. -/
theorem setSegments_of_atSegments? (pointer : String) {found : Json} {segments : List String}
    (h : atSegments? (some v) segments = some found) :
    setSegments pointer found segments v = .ok v := by
  induction segments generalizing v with
  | nil =>
    cases h
    rfl
  | cons segment rest ih =>
    obtain ⟨child, hchild, hfound⟩ := exists_child_of_atSegments? h
    obtain ⟨put, hput, hback⟩ := exists_putter?_of_child? hchild
    rw [setSegments_cons, hput, hchild]
    dsimp only
    rw [Option.getD_some, ih hfound, Except.map, hback]

/-! ### Names of a pointer -/

/-- Two writes at the same segments, whose pointers have different names: both fail at one of the
segments, or both give the same document. -/
inductive SameWrite (pointer other : String) (segments : List String) :
    Except PathError Json → Except PathError Json → Prop where
  | fails {segment : String} (h : segment ∈ segments) :
      SameWrite pointer other segments (.error (.invalidArrayIndex pointer segment))
        (.error (.invalidArrayIndex other segment))
  | writes (document : Json) : SameWrite pointer other segments (.ok document) (.ok document)

/-- What goes alike below a segment goes alike at it. -/
theorem SameWrite.within {pointer other segment : String} {rest : List String}
    {written written' : Except PathError Json} (h : SameWrite pointer other rest written written')
    (place : Json → Json) :
    SameWrite pointer other (segment :: rest) (written.map place) (written'.map place) := by
  cases h with
  | fails hmem => exact .fails (List.mem_cons_of_mem segment hmem)
  | writes document => exact .writes (place document)

/-- What a write does does not depend on how its pointer is called. -/
theorem sameWrite_setSegments (pointer other : String) (value v : Json) (segments : List String) :
    SameWrite pointer other segments (setSegments pointer value segments v)
      (setSegments other value segments v) := by
  induction segments generalizing v with
  | nil => exact .writes value
  | cons segment rest ih =>
    rw [setSegments_cons, setSegments_cons]
    cases putter? segment v with
    | none => exact .fails List.mem_cons_self
    | some put => exact (ih _).within put

theorem setSegments_renamed {pointer : String} (other : String) {value document : Json}
    {segments : List String} (h : setSegments pointer value segments v = .ok document) :
    setSegments other value segments v = .ok document := by
  have hsame := sameWrite_setSegments pointer other value v segments
  generalize setSegments other value segments v = written at hsame ⊢
  rw [h] at hsame
  cases hsame
  rfl

/-! ### Pointers -/

/-- Reading and writing at a pointer form a lens: after a write the value is read there and a second
write does what it would have done at first, and writing the value that is there gives the same
document. -/
theorem getAt_setAt_lens (data : Option Json) (pointer : String) (value other : Json) :
    (∀ document, setAt data pointer value = .ok document →
        getAt (some document) pointer = .ok (some value) ∧
          setAt (some document) pointer other = setAt data pointer other) ∧
      ∀ found, getAt data pointer = .ok (some found) →
        (setAt data pointer found).map some = .ok data := by
  cases hparse : Pointer.parse pointer with
  | error e =>
    constructor
    · intro document h
      rw [setAt, hparse] at h
      cases h
    · intro found h
      rw [getAt, hparse] at h
      cases h
  | ok segments =>
    simp only [getAt_of_parse hparse, setAt_of_parse hparse, Option.getD_some]
    constructor
    · intro document h
      exact ⟨congrArg Except.ok (atSegments?_setSegments h), setSegments_setSegments h other⟩
    · intro found h
      have hfound : atSegments? data segments = some found := Except.ok.inj h
      cases data with
      | none =>
        rw [atSegments?_none] at hfound
        cases hfound
      | some v =>
        rw [Option.getD_some, setSegments_of_atSegments? pointer hfound]
        rfl

/-- A document with an array behind another member. -/
def twoMembers (last : Int) : Json := .obj [("b", .null), ("a", .arr [int 1, int last])]

/-- The second element of the array in it. -/
theorem getAt_setAt_lens_element :
    setAt (some (twoMembers 2)) "/a/1" (int 3) = .ok (twoMembers 3) ∧
      getAt (some (twoMembers 2)) "/a/1" = .ok (some (int 2)) ∧
      getAt (some (twoMembers 3)) "/a/1" = .ok (some (int 3)) ∧
      setAt (some (twoMembers 3)) "/a/1" .null = setAt (some (twoMembers 2)) "/a/1" .null ∧
      (setAt (some (twoMembers 2)) "/a/1" (int 2)).map some = .ok (some (twoMembers 2)) := by
  have hwrite : setAt (some (twoMembers 2)) "/a/1" (int 3) = .ok (twoMembers 3) := rfl
  have hread : getAt (some (twoMembers 2)) "/a/1" = .ok (some (int 2)) := rfl
  obtain ⟨hlens, hback⟩ := getAt_setAt_lens (some (twoMembers 2)) "/a/1" (int 3) .null
  exact ⟨hwrite, hread, (hlens _ hwrite).1, (hlens _ hwrite).2, hback _ hread⟩

end SchemaForm.Json
