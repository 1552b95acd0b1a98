import SchemaForm.Proofs.Json.Lens
import SchemaForm.Proofs.Pointer.RoundTrip

/-!
# What a write touches, and when it is refused

A write behind several segments writes into what the first ones lead to. So it leaves alone what is
read where segments lead apart from its own, and what is read below its own place is read from the
value. It is refused for one reason only, besides a text that is no pointer: it comes to an array of
the data, and the next segment is neither an index of an element nor of the place after the last. An
array that it passes gets at most one element more.
-/

namespace SchemaForm

/-! ### Segments that lead apart -/

namespace Pointer

variable {x y : String} {xs ys : List String}

/-- Neither list of segments is a prefix of the other, and the two segments at which they first
differ are not spellings of one array index. -/
structure Apart (xs ys : List String) : Prop where
  not_prefix_left : ¬ xs <+: ys
  not_prefix_right : ¬ ys <+: xs
  index?_ne {front : List String} {x y : String} (hx : front ++ [x] <+: xs)
    (hy : front ++ [y] <+: ys) (hne : x ≠ y) (i : Nat) (hi : index? x = some i) :
    index? y ≠ some i

theorem apart_cons_self_iff : Apart (x :: xs) (x :: ys) ↔ Apart xs ys := by
  constructor
  · rintro ⟨hleft, hright, hindex⟩
    refine ⟨fun h => hleft (List.cons_prefix_cons.2 ⟨rfl, h⟩),
      fun h => hright (List.cons_prefix_cons.2 ⟨rfl, h⟩), ?_⟩
    intro front a b ha hb hne
    have ha' : (x :: front) ++ [a] <+: x :: xs := List.cons_prefix_cons.2 ⟨rfl, ha⟩
    have hb' : (x :: front) ++ [b] <+: x :: ys := List.cons_prefix_cons.2 ⟨rfl, hb⟩
    exact hindex ha' hb' hne
  · rintro ⟨hleft, hright, hindex⟩
    refine ⟨fun h => hleft (List.cons_prefix_cons.1 h).2,
      fun h => hright (List.cons_prefix_cons.1 h).2, ?_⟩
    intro front a b ha hb hne
    cases front with
    | nil =>
      have hax : a = x := (List.cons_prefix_cons.1 ha).1
      have hbx : b = x := (List.cons_prefix_cons.1 hb).1
      exact absurd (hax.trans hbx.symm) hne
    | cons z front =>
      exact hindex (List.cons_prefix_cons.1 ha).2 (List.cons_prefix_cons.1 hb).2 hne

theorem apart_cons_iff_of_ne (h : x ≠ y) :
    Apart (x :: xs) (y :: ys) ↔ ∀ i, index? x = some i → index? y ≠ some i := by
  constructor
  · rintro ⟨-, -, hindex⟩
    have hx : [] ++ [x] <+: x :: xs := List.prefix_append [x] xs
    have hy : [] ++ [y] <+: y :: ys := List.prefix_append [y] ys
    exact hindex hx hy h
  · intro hindex
    refine ⟨fun hbegins => h (List.cons_prefix_cons.1 hbegins).1,
      fun hbegins => h (List.cons_prefix_cons.1 hbegins).1.symm, ?_⟩
    intro front a b ha hb hne
    cases front with
    | nil =>
      obtain rfl : a = x := (List.cons_prefix_cons.1 ha).1
      obtain rfl : b = y := (List.cons_prefix_cons.1 hb).1
      exact hindex
    | cons z front =>
      have hzx : z = x := (List.cons_prefix_cons.1 ha).1
      have hzy : z = y := (List.cons_prefix_cons.1 hb).1
      exact absurd (hzx.symm.trans hzy) h

end Pointer

namespace Json

variable {data : Option Json} {v value document : Json} {pointer segment : String}
  {segments : List String}

/-! ### A write in two steps -/

/-- Absent data have no child, like the value `null`. -/
theorem child?_getD_null (segment : String) (data : Option Json) :
    child? segment (data.getD .null) = data.bind (child? segment) := by
  cases data with
  | none => rfl
  | some v => rfl

/-- A write behind more segments writes into what the first of them lead to, and the outcome is what
is written there. -/
theorem setSegments_append_eq_ok_iff {front rest : List String} :
    setSegments pointer value (front ++ rest) (data.getD .null) = .ok document ↔
      ∃ written,
        setSegments pointer value rest ((atSegments? data front).getD .null) = .ok written ∧
          setSegments pointer written front (data.getD .null) = .ok document := by
  induction front generalizing data document with
  | nil => simp [setSegments]
  | cons segment front ih =>
    simp only [List.cons_append, setSegments_cons_eq_ok_iff, child?_getD_null, ih,
      atSegments?_cons]
    constructor
    · rintro ⟨put, child, hput, ⟨written, hwritten, hchild⟩, rfl⟩
      exact ⟨written, hwritten, put, child, hput, hchild, rfl⟩
    · rintro ⟨written, hwritten, put, child, hput, hchild, rfl⟩
      exact ⟨put, child, hput, ⟨written, hwritten, hchild⟩, rfl⟩

/-! ### What a write leaves alone -/

/-- A child that is put leaves the other members and elements as they are. -/
theorem child?_put_of_ne {put : Json → Json} (h : putter? segment v = some put) {other : String}
    (hne : segment ≠ other)
    (hindex : ∀ i, Pointer.index? segment = some i → Pointer.index? other ≠ some i) (c : Json) :
    child? other (put c) = child? other v := by
  cases v with
  | arr items =>
    obtain ⟨i, hi, hsegment, rfl⟩ := putter?_arr_eq_some_iff.1 h
    have hother := hindex i hsegment
    rw [child?, child?]
    cases hj : Pointer.index? other with
    | none => rfl
    | some j =>
      have hij : j ≠ i := fun hij => hother (hij ▸ hj)
      rw [Option.bind_some, Option.bind_some]
      grind
  | obj entries =>
    cases h
    simp [child?, Entries.get?_insert, hne]
  | _ =>
    cases h
    simp [child?, Entries.get?_cons, hne]

/-- Where segments lead apart from those of a write, the same is read as before. -/
theorem atSegments?_setSegments_of_apart {others : List String}
    (h : setSegments pointer value segments (data.getD .null) = .ok document)
    (hapart : Pointer.Apart segments others) :
    atSegments? (some document) others = atSegments? data others := by
  induction segments generalizing data document others with
  | nil => exact absurd List.nil_prefix hapart.not_prefix_left
  | cons segment rest ih =>
    cases others with
    | nil => exact absurd List.nil_prefix hapart.not_prefix_right
    | cons other others =>
      obtain ⟨put, child, hput, hchild, rfl⟩ := setSegments_cons_eq_ok_iff.1 h
      rw [atSegments?_cons, atSegments?_cons, Option.bind_some]
      by_cases heq : segment = other
      · subst heq
        rw [child?_put hput]
        rw [child?_getD_null] at hchild
        exact ih hchild (Pointer.apart_cons_self_iff.1 hapart)
      · rw [child?_put_of_ne hput heq ((Pointer.apart_cons_iff_of_ne heq).1 hapart),
          child?_getD_null]

/-- A write touches its own place only: what is read at a pointer that leads apart is as before, and
what is read below is read from the value. -/
theorem getAt_setAt_frame (data : Option Json)
    (hparse : Pointer.parse pointer = .ok segments)
    (h : setAt data pointer value = .ok document) :
    (∀ other others, Pointer.parse other = .ok others → Pointer.Apart segments others →
        getAt (some document) other = getAt data other) ∧
      ∀ other rest, Pointer.parse other = .ok (segments ++ rest) →
        getAt (some document) other = .ok (atSegments? (some value) rest) := by
  rw [setAt_of_parse hparse] at h
  constructor
  · intro other others hother hapart
    rw [getAt_of_parse hother, getAt_of_parse hother, atSegments?_setSegments_of_apart h hapart]
  · intro other rest hother
    rw [getAt_of_parse hother, atSegments?_append, atSegments?_setSegments h]

/-- A document with an array behind its only member. -/
def listed (items : List Json) : Json := .obj [("list", .arr items)]

/-- An object with a count. -/
def countOf (n : Int) : Json := .obj [("count", int n)]

/-- A write that appends an element leaves the first one as it is, however its index is spelled. -/
theorem getAt_setAt_frame_appended :
    setAt (some (listed [countOf 1])) "/list/1" (countOf 2) = .ok (listed [countOf 1, countOf 2]) ∧
      Pointer.Apart ["list", "1"] ["list", "+0", "count"] ∧
      getAt (some (listed [countOf 1, countOf 2])) "/list/+0/count" =
        getAt (some (listed [countOf 1])) "/list/+0/count" ∧
      getAt (some (listed [countOf 1, countOf 2])) "/list/1/count" = .ok (some (int 2)) := by
  have hwrite : setAt (some (listed [countOf 1])) "/list/1" (countOf 2) =
      .ok (listed [countOf 1, countOf 2]) := rfl
  have hone : Pointer.index? "1" = some 1 := rfl
  have hzero : Pointer.index? "+0" = some 0 := rfl
  have hapart : Pointer.Apart ["list", "1"] ["list", "+0", "count"] := by
    rw [Pointer.apart_cons_self_iff, Pointer.apart_cons_iff_of_ne (by decide), hone, hzero]
    simp
  obtain ⟨happarts, hbelow⟩ := getAt_setAt_frame (some (listed [countOf 1])) rfl hwrite
  exact ⟨hwrite, hapart, happarts _ _ rfl hapart, hbelow "/list/1/count" ["count"] rfl⟩

/-! ### What refuses a write -/

/-- The segments before the position lead to an array of the data, and the segment at it is no index
of an element or of the place after the last. -/
def BlockedAt (data : Option Json) (segments : List String) (n : Nat) : Prop :=
  ∃ items segment, atSegments? data (segments.take n) = some (.arr items) ∧
    segments[n]? = some segment ∧ ∀ i ≤ items.length, Pointer.index? segment ≠ some i

/-- A child cannot be put into an array where the segment is no index up to its length. -/
theorem putter?_eq_none_iff :
    putter? segment v = none ↔
      ∃ items, v = .arr items ∧ ∀ i ≤ items.length, Pointer.index? segment ≠ some i := by
  cases v with
  | arr items =>
    rw [Option.eq_none_iff_forall_ne_some]
    constructor
    · intro h
      exact ⟨items, rfl, fun i hi hindex => h _ (putter?_arr_eq_some_iff.2 ⟨i, hi, hindex, rfl⟩)⟩
    · rintro ⟨others, heq, h⟩ put hput
      cases heq
      obtain ⟨i, hi, hindex, -⟩ := putter?_arr_eq_some_iff.1 hput
      exact h i hi hindex
  | _ => simp [putter?]

theorem blockedAt_zero_iff {rest : List String} :
    BlockedAt data (segment :: rest) 0 ↔ putter? segment (data.getD .null) = none := by
  rw [putter?_eq_none_iff]
  cases data with
  | none => simp [BlockedAt]
  | some v => simp [BlockedAt]

theorem blockedAt_succ_iff {rest : List String} {n : Nat} :
    BlockedAt data (segment :: rest) (n + 1) ↔ BlockedAt (data.bind (child? segment)) rest n :=
  Iff.rfl

/-- A write fails at the first position at which it is blocked. -/
theorem setSegments_eq_error_iff {e : PathError} :
    setSegments pointer value segments (data.getD .null) = .error e ↔
      ∃ n segment, segments[n]? = some segment ∧ BlockedAt data segments n ∧
        (∀ m < n, ¬ BlockedAt data segments m) ∧ e = .invalidArrayIndex pointer segment := by
  induction segments generalizing data with
  | nil => simp [setSegments]
  | cons segment rest ih =>
    rw [setSegments_cons_eq_error_iff, ← blockedAt_zero_iff, child?_getD_null, ih]
    constructor
    · rintro (⟨hzero, rfl⟩ | ⟨hzero, n, found, hfound, hblocked, hfirst, rfl⟩)
      · exact ⟨0, segment, rfl, hzero, fun m hm => absurd hm (Nat.not_lt_zero m), rfl⟩
      · refine ⟨n + 1, found, hfound, blockedAt_succ_iff.2 hblocked, ?_, rfl⟩
        intro m hm
        cases m with
        | zero => exact mt blockedAt_zero_iff.1 hzero
        | succ m => exact mt blockedAt_succ_iff.1 (hfirst m (Nat.lt_of_succ_lt_succ hm))
    · rintro ⟨n, found, hfound, hblocked, hfirst, rfl⟩
      cases n with
      | zero =>
        cases hfound
        exact Or.inl ⟨hblocked, rfl⟩
      | succ n =>
        refine Or.inr ⟨mt blockedAt_zero_iff.2 (hfirst 0 (Nat.zero_lt_succ n)), n, found, hfound,
          blockedAt_succ_iff.1 hblocked, fun m hm => ?_, rfl⟩
        exact mt blockedAt_succ_iff.2 (hfirst (m + 1) (Nat.succ_lt_succ hm))

/-- A write that is blocked nowhere succeeds. -/
theorem exists_setSegments_iff :
    (∃ document, setSegments pointer value segments (data.getD .null) = .ok document) ↔
      ∀ n, ¬ BlockedAt data segments n := by
  constructor
  · rintro ⟨document, h⟩ n
    -- Where it is blocked at all it is blocked at a first position.
    induction n using Nat.strongRecOn with
    | ind n ih =>
      intro hblocked
      obtain ⟨segment, hsegment⟩ : ∃ segment, segments[n]? = some segment := by
        obtain ⟨items, segment, -, hsegment, -⟩ := hblocked
        exact ⟨segment, hsegment⟩
      have herror : setSegments pointer value segments (data.getD .null) =
          .error (.invalidArrayIndex pointer segment) :=
        setSegments_eq_error_iff.2 ⟨n, segment, hsegment, hblocked, ih, rfl⟩
      rw [h] at herror
      cases herror
  · intro h
    cases hset : setSegments pointer value segments (data.getD .null) with
    | ok document => exact ⟨document, rfl⟩
    | error e =>
      obtain ⟨n, -, -, hblocked, -⟩ := setSegments_eq_error_iff.1 hset
      exact absurd hblocked (h n)

/-- Where a value is read, every value can be written. -/
theorem exists_setSegments_of_atSegments? {found : Json}
    (h : atSegments? data segments = some found) (pointer : String) (value : Json) :
    ∃ document, setSegments pointer value segments (data.getD .null) = .ok document := by
  have hfree : ∀ n, ¬ BlockedAt data segments n := by
    cases data with
    | none =>
      rw [atSegments?_none] at h
      cases h
    | some v => exact exists_setSegments_iff.1 ⟨v, setSegments_of_atSegments? pointer h⟩
  exact exists_setSegments_iff.2 hfree

/-- An array that a write passes gets at most one element more. -/
theorem exists_items_of_setSegments {front rest : List String} {items : List Json}
    (hitems : atSegments? data front = some (.arr items))
    (h : setSegments pointer value (front ++ segment :: rest) (data.getD .null) = .ok document) :
    ∃ written, atSegments? (some document) front = some (.arr written) ∧
      items.length ≤ written.length ∧ written.length ≤ items.length + 1 := by
  obtain ⟨array, harray, hfront⟩ := setSegments_append_eq_ok_iff.1 h
  rw [hitems, Option.getD_some] at harray
  obtain ⟨put, child, hput, -, rfl⟩ := setSegments_cons_eq_ok_iff.1 harray
  obtain ⟨i, hi, -, rfl⟩ := putter?_arr_eq_some_iff.1 hput
  have hlength : (items.take i ++ child :: items.drop (i + 1)).length =
      max items.length (i + 1) := by
    simp only [List.length_append, List.length_take, List.length_cons, List.length_drop]
    omega
  exact ⟨_, atSegments?_setSegments hfront, by omega, by omega⟩

/-! ### Elements of an array -/

section Elements

variable {items : List Json} {i : Nat}
  (hitems : atSegments? data segments = some (.arr items)) (hi : i < items.length)
  (hindex : i ≤ Pointer.maxIndex)

include hitems hi hindex

theorem atSegments?_element : atSegments? data (segments ++ [toString i]) = some items[i] := by
  rw [atSegments?_append, hitems, atSegments?_cons, Option.bind_some, child?,
    Pointer.index?_toString hindex, Option.bind_some, List.getElem?_eq_getElem hi, atSegments?_nil]

/-- A write at an element of an array makes the data that writing the edited array makes. -/
theorem exists_setSegments_element (pointer other : String) (item : Json) :
    ∃ document,
      setSegments pointer (.arr (items.set i item)) segments (data.getD .null) = .ok document ∧
        setSegments other item (segments ++ [toString i]) (data.getD .null) = .ok document := by
  obtain ⟨document, hdocument⟩ := exists_setSegments_of_atSegments? hitems pointer
    (.arr (items.set i item))
  have helement : setSegments other item [toString i] (.arr items) =
      .ok (.arr (items.set i item)) := by
    rw [setSegments, Pointer.index?_toString hindex]
    dsimp only
    rw [if_pos hi]
    rfl
  refine ⟨document, hdocument, setSegments_append_eq_ok_iff.2 ⟨_, ?_, setSegments_renamed other hdocument⟩⟩
  rw [hitems, Option.getD_some, helement]

end Elements

/-! ### The outcome -/

/-- How a write at a pointer comes out. It fails for a text that is no pointer, which the error
names, and where it is blocked, and then the error names the pointer and the first segment at which
it is. Otherwise it succeeds, and an array that it passes gets at most one element more. -/
theorem setAt_outcome (data : Option Json) (pointer : String) (value : Json) :
    (∀ named, setAt data pointer value = .error (.invalidPointer named) ↔
        named = pointer ∧ pointer ≠ "" ∧ ¬ Pointer.StartsWithSlash pointer) ∧
      (∀ named segment, setAt data pointer value = .error (.invalidArrayIndex named segment) ↔
        named = pointer ∧ ∃ segments n, Pointer.parse pointer = .ok segments ∧
          segments[n]? = some segment ∧ BlockedAt data segments n ∧
          ∀ m < n, ¬ BlockedAt data segments m) ∧
      ((∃ document, setAt data pointer value = .ok document) ↔
        ∃ segments, Pointer.parse pointer = .ok segments ∧ ∀ n, ¬ BlockedAt data segments n) ∧
      ∀ segments document, Pointer.parse pointer = .ok segments →
        setAt data pointer value = .ok document →
          ∀ n < segments.length, ∀ items, atSegments? data (segments.take n) = some (.arr items) →
            ∃ written, atSegments? (some document) (segments.take n) = some (.arr written) ∧
              items.length ≤ written.length ∧ written.length ≤ items.length + 1 := by
  cases hparse : Pointer.parse pointer with
  | error e =>
    obtain ⟨rfl, htext⟩ := Pointer.parse_eq_error_iff.1 hparse
    have hset : setAt data pointer value = .error (.invalidPointer pointer) := by
      rw [setAt, hparse]
      rfl
    rw [hset]
    simp [htext, eq_comm]
  | ok segments =>
    have htext : ¬ (pointer ≠ "" ∧ ¬ Pointer.StartsWithSlash pointer) := by
      rw [← not_or, not_not]
      exact Pointer.exists_parse_iff.1 ⟨segments, hparse⟩
    rw [setAt_of_parse hparse]
    refine ⟨fun named => ?_, fun named segment => ?_, ?_, ?_⟩
    · rw [setSegments_eq_error_iff]
      simp [htext]
    · rw [setSegments_eq_error_iff]
      constructor
      · rintro ⟨n, found, hfound, hblocked, hfirst, heq⟩
        cases heq
        exact ⟨rfl, segments, n, rfl, hfound, hblocked, hfirst⟩
      · rintro ⟨rfl, _, n, hsegments, hfound, hblocked, hfirst⟩
        cases hsegments
        exact ⟨n, segment, hfound, hblocked, hfirst, rfl⟩
    · rw [exists_setSegments_iff]
      simp
    · rintro _ document hsegments hset n hn items hitems
      cases hsegments
      have hsplit : segments = segments.take n ++ segments[n] :: segments.drop (n + 1) := by
        rw [← List.drop_eq_getElem_cons hn, List.take_append_drop]
      rw [hsplit] at hset
      exact exists_items_of_setSegments hitems hset

/-- An array in an array is written behind its last element, and not further. -/
theorem setAt_outcome_nested :
    setAt (some (listed [.arr [int 1], .null])) "/list/0/1" (int 2) =
        .ok (listed [.arr [int 1, int 2], .null]) ∧
      (∃ written, atSegments? (some (listed [.arr [int 1, int 2], .null])) ["list", "0"] =
          some (.arr written) ∧ 1 ≤ written.length ∧ written.length ≤ 2) ∧
      setAt (some (listed [.arr [int 1], .null])) "/list/0/2/x" (int 2) =
        .error (.invalidArrayIndex "/list/0/2/x" "2") := by
  have hwrite : setAt (some (listed [.arr [int 1], .null])) "/list/0/1" (int 2) =
      .ok (listed [.arr [int 1, int 2], .null]) := rfl
  have hzero : Pointer.index? "0" = some 0 := rfl
  have htwo : Pointer.index? "2" = some 2 := rfl
  have hblocked : BlockedAt (some (listed [.arr [int 1], .null])) ["list", "0", "2", "x"] 2 := by
    refine ⟨[int 1], "2", rfl, rfl, fun i hi hindex => ?_⟩
    obtain rfl : 2 = i := Option.some.inj (htwo.symm.trans hindex)
    exact absurd hi (by decide)
  have hfirst : ∀ m < 2,
      ¬ BlockedAt (some (listed [.arr [int 1], .null])) ["list", "0", "2", "x"] m := by
    rintro m hm ⟨items, segment, hitems, hsegment, hindex⟩
    cases m with
    | zero => cases hitems
    | succ m =>
      obtain rfl : m = 0 := by omega
      cases hsegment
      exact hindex 0 (Nat.zero_le _) hzero
  obtain ⟨-, -, -, hgrown⟩ :=
    setAt_outcome (some (listed [.arr [int 1], .null])) "/list/0/1" (int 2)
  obtain ⟨-, hrefused, -⟩ :=
    setAt_outcome (some (listed [.arr [int 1], .null])) "/list/0/2/x" (int 2)
  exact ⟨hwrite, hgrown _ _ rfl hwrite 2 (by decide) _ rfl,
    (hrefused _ _).2 ⟨rfl, _, 2, rfl, rfl, hblocked, hfirst⟩⟩

end Json
end SchemaForm
