import SchemaForm.Pointer

/-!
# Pointers and their segments

A canonical pointer is one that `Pointer.build` writes. Building loses no segment, parsing reads
the segments back, and what lies strictly above a canonical pointer, judged by the text alone, are
the pointers of the proper prefixes of its segments. So the operations that work on the text alone
append, drop, name and compare segments. `Pointer.join base segments` is the pointer reached from
`base` by appending the segments one after the other.
-/

namespace SchemaForm.Pointer

/-! ### Written segments -/

theorem slash_notMem_escape (segment : List Char) : '/' ∉ escape segment := by
  intro h
  obtain ⟨c, -, hc⟩ := List.mem_flatMap.1 h
  unfold escapeChar at hc
  split at hc
  · simp at hc
  · split at hc
    · simp at hc
    · next hne =>
      rw [List.mem_singleton] at hc
      exact hne hc.symm

/-- A character other than `~` is read as itself. -/
theorem unescape_cons {c : Char} (h : c ≠ '~') (rest : List Char) :
    unescape (c :: rest) = c :: unescape rest := by
  rw [unescape.eq_def]
  split
  · next heq => cases heq; exact absurd rfl h
  · next heq => cases heq; exact absurd rfl h
  · next heq => cases heq; rfl
  · next heq => cases heq

theorem unescape_escape (segment : List Char) : unescape (escape segment) = segment := by
  induction segment with
  | nil => rfl
  | cons c rest ih =>
    show unescape (escapeChar c ++ escape rest) = c :: rest
    unfold escapeChar
    split
    · next h => subst h; simp [unescape, ih]
    · next htilde =>
      split
      · next h => subst h; simp [unescape, ih]
      · rw [List.singleton_append, unescape_cons htilde, ih]

theorem decode_escape (segment : String) : decode (escape segment.toList) = segment := by
  rw [decode, unescape_escape, String.ofList_toList]

/-! ### Cutting at slashes -/

theorem pieces_of_notMem {piece : List Char} (h : '/' ∉ piece) : pieces piece = [piece] := by
  induction piece with
  | nil => rfl
  | cons c rest ih =>
    have hc : c ≠ '/' := by
      rintro rfl
      exact h List.mem_cons_self
    have hrest : '/' ∉ rest := fun hmem => h (List.mem_cons_of_mem c hmem)
    rw [pieces, if_neg hc, ih hrest]

theorem pieces_append_slash {piece : List Char} (h : '/' ∉ piece) (rest : List Char) :
    pieces (piece ++ '/' :: rest) = piece :: pieces rest := by
  induction piece with
  | nil => rfl
  | cons c more ih =>
    have hc : c ≠ '/' := by
      rintro rfl
      exact h List.mem_cons_self
    have hmore : '/' ∉ more := fun hmem => h (List.mem_cons_of_mem c hmem)
    rw [List.cons_append, pieces, if_neg hc, ih hmore]

theorem pieces_ne_nil (text : List Char) : pieces text ≠ [] := by
  cases text with
  | nil => exact List.cons_ne_nil _ _
  | cons c rest =>
    rw [pieces]
    split
    · exact List.cons_ne_nil _ _
    · split <;> exact List.cons_ne_nil _ _

/-- A slash cuts a text in two, whatever slashes the parts hold. -/
theorem pieces_append (front rest : List Char) :
    pieces (front ++ '/' :: rest) = pieces front ++ pieces rest := by
  induction front with
  | nil => rfl
  | cons c front ih =>
    rw [List.cons_append, pieces, pieces, ih]
    by_cases hc : c = '/'
    · rw [if_pos hc, if_pos hc, List.cons_append]
    · rw [if_neg hc, if_neg hc]
      cases hfront : pieces front with
      | nil => exact absurd hfront (pieces_ne_nil front)
      | cons piece more => rfl

/-- There is one text more than there are slashes. -/
theorem length_pieces (text : List Char) : (pieces text).length = text.count '/' + 1 := by
  induction text with
  | nil => rfl
  | cons c rest ih =>
    rw [pieces]
    by_cases hc : c = '/'
    · rw [if_pos hc, hc, List.count_cons_self, List.length_cons, ih]
    · rw [if_neg hc, List.count_cons_of_ne hc, ← ih]
      cases hpieces : pieces rest with
      | nil => exact absurd hpieces (pieces_ne_nil rest)
      | cons piece more => rfl

theorem buildChars_cons (segment : String) (segments : List String) :
    buildChars (segment :: segments) = '/' :: (escape segment.toList ++ buildChars segments) := rfl

theorem buildChars_append (xs ys : List String) :
    buildChars (xs ++ ys) = buildChars xs ++ buildChars ys :=
  List.flatMap_append

/-- Behind its first slash a canonical pointer falls into its written segments. -/
theorem pieces_escape_append (segment : String) (segments : List String) :
    pieces (escape segment.toList ++ buildChars segments) =
      (segment :: segments).map fun s => escape s.toList := by
  induction segments generalizing segment with
  | nil =>
    show pieces (escape segment.toList ++ []) = _
    rw [List.append_nil, pieces_of_notMem (slash_notMem_escape _)]
    rfl
  | cons next rest ih =>
    rw [buildChars_cons, pieces_append_slash (slash_notMem_escape _), ih next]
    rfl

theorem map_decode_escape (segments : List String) :
    (segments.map fun s => escape s.toList).map decode = segments := by
  induction segments with
  | nil => rfl
  | cons segment rest ih =>
    rw [List.map_cons, List.map_cons, decode_escape, ih]

/-! ### Building and parsing -/

@[simp] theorem toList_build (segments : List String) :
    (build segments).toList = buildChars segments :=
  String.toList_ofList

@[simp] theorem build_nil : build [] = "" := rfl

theorem buildChars_injective {xs ys : List String} (h : buildChars xs = buildChars ys) :
    xs = ys := by
  cases xs with
  | nil =>
    cases ys with
    | nil => rfl
    | cons y ys => rw [buildChars_cons] at h; cases h
  | cons x xs =>
    cases ys with
    | nil => rw [buildChars_cons] at h; cases h
    | cons y ys =>
      rw [buildChars_cons, buildChars_cons] at h
      have hp := congrArg pieces (List.cons.inj h).2
      rw [pieces_escape_append, pieces_escape_append] at hp
      have hd := congrArg (List.map decode) hp
      rwa [map_decode_escape, map_decode_escape] at hd

theorem build_injective {xs ys : List String} (h : build xs = build ys) : xs = ys := by
  apply buildChars_injective
  rw [← toList_build, ← toList_build, h]

/-- A slash and more parses into the texts between the slashes. -/
theorem parse_of_toList {pointer : String} {c : Char} {rest : List Char}
    (h : pointer.toList = '/' :: c :: rest) :
    parse pointer = .ok ((pieces (c :: rest)).map decode) := by
  unfold parse
  rw [h]
  rfl

/-- The segments of a canonical pointer are read back, but for the lone slash. -/
theorem parse_build {segments : List String} (h : segments ≠ [""]) :
    parse (build segments) = .ok segments := by
  cases segments with
  | nil => rfl
  | cons segment rest =>
    have hp := pieces_escape_append segment rest
    have htext := toList_build (segment :: rest)
    rw [buildChars_cons] at htext
    cases hchars : escape segment.toList ++ buildChars rest with
    | nil =>
      obtain ⟨hseg, hrest⟩ := List.append_eq_nil_iff.1 hchars
      have hempty : segment = "" := by
        have := decode_escape segment
        rw [hseg] at this
        exact this.symm
      have hnil : rest = [] := buildChars_injective (hrest.trans rfl)
      exact absurd (by rw [hempty, hnil]) h
    | cons c more =>
      rw [hchars] at hp htext
      rw [parse_of_toList htext, hp, map_decode_escape]

theorem parse_slash : parse (build [""]) = .ok [] := rfl

/-- A pointer that can be read is a spelling of the root, or a slash and more. -/
theorem toList_of_parse {pointer : String} {segments : List String}
    (h : parse pointer = .ok segments) :
    ((pointer = "" ∨ pointer = "/") ∧ segments = []) ∨
      ∃ c rest, pointer.toList = '/' :: c :: rest ∧
        segments = (pieces (c :: rest)).map decode := by
  cases htext : pointer.toList with
  | nil =>
    obtain rfl : pointer = "" := String.toList_inj.1 htext
    cases h
    exact Or.inl ⟨Or.inl rfl, rfl⟩
  | cons first rest =>
    by_cases hfirst : first = '/'
    · subst hfirst
      cases rest with
      | nil =>
        obtain rfl : pointer = "/" := String.toList_inj.1 htext
        cases h
        exact Or.inl ⟨Or.inr rfl, rfl⟩
      | cons c rest =>
        rw [parse_of_toList htext] at h
        cases h
        exact Or.inr ⟨c, rest, rfl, rfl⟩
    · unfold parse at h
      rw [htext] at h
      simp [hfirst] at h

/-- The root has two spellings. -/
theorem parse_eq_nil_iff {pointer : String} :
    parse pointer = .ok [] ↔ pointer = "" ∨ pointer = "/" := by
  constructor
  · intro h
    rcases toList_of_parse h with ⟨hroot, -⟩ | ⟨c, rest, -, hsegments⟩
    · exact hroot
    · exact absurd (List.map_eq_nil_iff.1 hsegments.symm) (pieces_ne_nil _)
  · rintro (rfl | rfl)
    · rfl
    · rfl

/-! ### Appending -/

@[simp] theorem toList_append (base segment : String) :
    (append base segment).toList = base.toList ++ '/' :: escape segment.toList := by
  rw [append, String.toList_append, String.toList_ofList]

/-- The pointer reached from `base` by appending segments one after the other. -/
def join (base : String) (segments : List String) : String := base ++ build segments

@[simp] theorem toList_join (base : String) (segments : List String) :
    (join base segments).toList = base.toList ++ buildChars segments := by
  rw [join, String.toList_append, toList_build]

@[simp] theorem join_nil (base : String) : join base [] = base := by
  apply String.toList_inj.1
  rw [toList_join]
  exact List.append_nil _

theorem join_cons (base segment : String) (segments : List String) :
    join base (segment :: segments) = join (append base segment) segments := by
  apply String.toList_inj.1
  simp [buildChars_cons]

@[simp] theorem join_empty (segments : List String) : join "" segments = build segments := by
  apply String.toList_inj.1
  simp

theorem join_injective {base : String} {xs ys : List String} (h : join base xs = join base ys) :
    xs = ys := by
  have ht := congrArg String.toList h
  rw [toList_join, toList_join] at ht
  exact buildChars_injective (List.append_cancel_left ht)

theorem append_eq_join (base segment : String) : append base segment = join base [segment] := by
  rw [join_cons, join_nil]

theorem append_build (segments : List String) (segment : String) :
    append (build segments) segment = build (segments ++ [segment]) := by
  apply String.toList_inj.1
  rw [toList_append, toList_build, toList_build, buildChars_append, buildChars_cons]
  exact congrArg (fun cs => buildChars segments ++ '/' :: cs) (List.append_nil _).symm

theorem build_append (xs ys : List String) : build (xs ++ ys) = join (build xs) ys := by
  apply String.toList_inj.1
  rw [toList_build, toList_join, toList_build, buildChars_append]

/-- The last segment of an extended pointer is the one at which it was extended. -/
theorem lastSegment?_append (base segment : String) :
    lastSegment? (append base segment) = some segment := by
  have hpieces : pieces (append base segment).toList =
      pieces base.toList ++ [escape segment.toList] := by
    rw [toList_append, pieces_append, pieces_of_notMem (slash_notMem_escape _)]
  rw [lastSegment?.eq_def, hpieces]
  cases hbase : pieces base.toList with
  | nil => exact absurd hbase (pieces_ne_nil _)
  | cons first more =>
    cases more with
    | nil => exact congrArg some (decode_escape segment)
    | cons next more =>
      simp only [List.cons_append]
      rw [List.getLast_cons (by simp), List.getLast_append_of_ne_nil _ (by simp),
        List.getLast_singleton, decode_escape]

theorem join_join (base : String) (xs ys : List String) :
    join (join base xs) ys = join base (xs ++ ys) := by
  apply String.toList_inj.1
  simp [buildChars_append]

theorem append_injective {base s t : String} (h : append base s = append base t) : s = t := by
  rw [append_eq_join, append_eq_join] at h
  exact List.singleton_inj.1 (join_injective h)

theorem join_cons_ne_empty (base segment : String) (segments : List String) :
    join base (segment :: segments) ≠ "" := by
  intro heq
  have hchars := congrArg String.toList heq
  simp [buildChars_cons] at hchars

theorem append_ne_empty (base segment : String) : append base segment ≠ "" := by
  rw [append_eq_join]
  exact join_cons_ne_empty base segment []

/-- All places below a pointer have a property. -/
def AllBelow (p : String → Prop) (base : String) : Prop :=
  ∀ segment rest, p (join base (segment :: rest))

theorem AllBelow.append {p : String → Prop} {base : String} (h : AllBelow p base)
    (segment : String) : p (append base segment) ∧ AllBelow p (append base segment) := by
  refine ⟨?_, fun next rest => ?_⟩
  · rw [append_eq_join]
    exact h segment []
  · rw [← join_cons]
    exact h segment (next :: rest)

/-- Below the root lies everything else. -/
theorem allBelow_empty {p : String → Prop} (h : ∀ pointer, pointer ≠ "" → p pointer) :
    AllBelow p "" :=
  fun segment rest => h _ (join_cons_ne_empty "" segment rest)

/-- An extended pointer has one segment more, but for the lone slash, which counts as a segment once
something follows it. -/
theorem parse_append {base segment : String} {segments : List String}
    (h : parse base = .ok segments) (hslash : base ≠ "/") (hsegment : segment ≠ "") :
    parse (append base segment) = .ok (segments ++ [segment]) := by
  have hlast : (pieces (escape segment.toList)).map decode = [segment] := by
    rw [pieces_of_notMem (slash_notMem_escape _), List.map_singleton, decode_escape]
  rcases toList_of_parse h with ⟨rfl | rfl, rfl⟩ | ⟨c, rest, htext, rfl⟩
  · cases hescaped : escape segment.toList with
    | nil =>
      have hempty := decode_escape segment
      rw [hescaped] at hempty
      exact absurd hempty.symm hsegment
    | cons c rest =>
      have happended : (append "" segment).toList = '/' :: c :: rest := by
        rw [toList_append, hescaped]
        rfl
      rw [parse_of_toList happended, ← hescaped, hlast]
      rfl
  · exact absurd rfl hslash
  · have happended : (append base segment).toList =
        '/' :: c :: (rest ++ '/' :: escape segment.toList) := by
      rw [toList_append, htext]
      rfl
    rw [parse_of_toList happended, ← List.cons_append, pieces_append, List.map_append, hlast]

/-- Different indices are different segments. -/
theorem toString_index_injective {i j : Nat} (h : toString i = toString j) : i = j := by
  have hd : Nat.toDigits 10 i = Nat.toDigits 10 j := String.ofList_injective h
  have hi := Nat.ofDigitChars_toDigits (b := 10) (n := i) (by decide) (by decide)
  have hj := Nat.ofDigitChars_toDigits (b := 10) (n := j) (by decide) (by decide)
  rw [hd] at hi
  exact hi.symm.trans hj

theorem toString_index_ne_empty (i : Nat) : toString i ≠ "" := by
  intro h
  have hdigits : Nat.toDigits 10 i = [] :=
    String.toList_ofList.symm.trans (congrArg String.toList h)
  exact Nat.toDigits_ne_nil hdigits

/-- The number of an element is read back, as long as an index can hold it. -/
theorem index?_toString {i : Nat} (h : i ≤ maxIndex) : index? (toString i) = some i := by
  have hchars : (toString i).toList = Nat.toDigits 10 i := String.toList_ofList
  have hdigits : ∀ c ∈ Nat.toDigits 10 i, c.isDigit = true := fun c hc =>
    Nat.isDigit_of_mem_toDigits (by decide) (by decide) hc
  have hunsigned : unsignedDigits (Nat.toDigits 10 i) = Nat.toDigits 10 i := by
    unfold unsignedDigits
    split
    · next digits heq =>
      have := hdigits '+' (heq ▸ List.mem_cons_self)
      exact absurd this (by decide)
    · rfl
  have hfold : (Nat.toDigits 10 i).foldl (fun n c => n * 10 + (c.toNat - '0'.toNat)) 0 = i := by
    simp only [Nat.mul_comm _ 10]
    exact Nat.ofDigitChars_toDigits (by decide) (by decide)
  have hall : (Nat.toDigits 10 i).all Char.isDigit = true := List.all_eq_true.2 hdigits
  have hempty : (Nat.toDigits 10 i).isEmpty = false :=
    List.isEmpty_eq_false_iff.2 Nat.toDigits_ne_nil
  simp only [index?, hchars, hunsigned, hfold, hall, hempty, Bool.not_false, Bool.and_self,
    if_pos h, if_true]

/-! ### Above and below -/

theorem after?_eq_some_iff {front text rest : List Char} :
    after? front text = some rest ↔ text = front ++ rest := by
  induction front generalizing text with
  | nil =>
    constructor
    · intro h; cases h; rfl
    · intro h; rw [h]; rfl
  | cons c front ih =>
    cases text with
    | nil =>
      constructor
      · intro h; cases h
      · intro h; cases h
    | cons d text =>
      rw [after?]
      by_cases h : c = d
      · rw [if_pos h, ih, h, List.cons_append, List.cons.injEq]
        exact ⟨fun h => ⟨rfl, h⟩, fun h => h.2⟩
      · rw [if_neg h]
        constructor
        · intro h; cases h
        · intro heq; cases heq; exact absurd rfl h

/-- Below a pointer other than the root stands what continues it with a slash. -/
theorem isDescendant_iff_of_ne {ancestor candidate : String} (h : ancestor ≠ "") :
    isDescendant ancestor candidate = true ↔
      ∃ rest, candidate.toList = ancestor.toList ++ '/' :: rest := by
  have hempty : ancestor.isEmpty = false := by
    rw [← Bool.not_eq_true]
    intro he
    exact h (String.isEmpty_iff.1 he)
  unfold isDescendant
  rw [hempty, if_neg Bool.false_ne_true]
  constructor
  · intro hm
    split at hm
    · next c rest heq =>
      have hc : c = '/' := by simpa using hm
      subst hc
      exact ⟨rest, after?_eq_some_iff.1 heq⟩
    · cases hm
  · rintro ⟨rest, hrest⟩
    rw [after?_eq_some_iff.2 hrest]
    rfl

theorem isDescendant_empty_iff {candidate : String} :
    isDescendant "" candidate = true ↔ candidate ≠ "" := by
  show (!candidate.isEmpty) = true ↔ _
  rw [Bool.not_eq_true', ← Bool.not_eq_true, String.isEmpty_iff]

theorem ne_empty_of_toList_append_slash {candidate : String} {front rest : List Char}
    (h : candidate.toList = front ++ '/' :: rest) : candidate ≠ "" := by
  intro he
  rw [he] at h
  exact absurd h.symm (List.append_ne_nil_of_right_ne_nil _ (List.cons_ne_nil _ _))

/-- What continues a pointer with a slash lies below it. -/
theorem isDescendant_of_toList {ancestor candidate : String} (rest : List Char)
    (h : candidate.toList = ancestor.toList ++ '/' :: rest) :
    isDescendant ancestor candidate = true := by
  by_cases he : ancestor = ""
  · subst he
    exact isDescendant_empty_iff.2 (ne_empty_of_toList_append_slash h)
  · exact (isDescendant_iff_of_ne he).2 ⟨rest, h⟩

theorem isDescendant_append (base segment : String) :
    isDescendant base (append base segment) = true :=
  isDescendant_of_toList _ (toList_append base segment)

theorem isDescendant_trans {a b c : String} (hab : isDescendant a b = true)
    (hbc : isDescendant b c = true) : isDescendant a c = true := by
  have hb : b ≠ "" := by
    by_cases ha : a = ""
    · subst ha
      exact isDescendant_empty_iff.1 hab
    · obtain ⟨rest, hrest⟩ := (isDescendant_iff_of_ne ha).1 hab
      exact ne_empty_of_toList_append_slash hrest
  obtain ⟨lower, hlower⟩ := (isDescendant_iff_of_ne hb).1 hbc
  by_cases ha : a = ""
  · subst ha
    exact isDescendant_empty_iff.2 (ne_empty_of_toList_append_slash hlower)
  · obtain ⟨upper, hupper⟩ := (isDescendant_iff_of_ne ha).1 hab
    apply isDescendant_of_toList (upper ++ '/' :: lower)
    rw [hlower, hupper, List.append_assoc, List.cons_append]

theorem not_isDescendant_self (pointer : String) : isDescendant pointer pointer = false := by
  rw [← Bool.not_eq_true]
  intro h
  by_cases he : pointer = ""
  · subst he
    exact isDescendant_empty_iff.1 h rfl
  · obtain ⟨rest, hrest⟩ := (isDescendant_iff_of_ne he).1 h
    have := congrArg List.length hrest
    simp at this

theorem not_isDescendant_append (base segment : String) :
    isDescendant (append base segment) base = false := by
  rw [← Bool.not_eq_true]
  intro h
  have := isDescendant_trans h (isDescendant_append base segment)
  rw [not_isDescendant_self] at this
  cases this

/-- Cut at one of its slashes, a canonical pointer leaves the pointer of some of its first
segments. -/
theorem eq_take_of_buildChars_eq {segments : List String} {front rest : List Char}
    (h : buildChars segments = front ++ '/' :: rest) :
    ∃ n < segments.length, front = buildChars (segments.take n) := by
  induction segments generalizing front with
  | nil => exact absurd h.symm (List.append_ne_nil_of_right_ne_nil _ (List.cons_ne_nil _ _))
  | cons segment more ih =>
    cases front with
    | nil => exact ⟨0, Nat.zero_lt_succ _, rfl⟩
    | cons c front =>
      rw [buildChars_cons, List.cons_append, List.cons.injEq] at h
      obtain ⟨rfl, h⟩ := h
      -- the cut lies behind the written segment, which holds no slash
      rcases List.append_eq_append_iff.1 h with ⟨extra, hfront, hrest⟩ | ⟨extra, hsegment, hrest⟩
      · obtain ⟨n, hn, heq⟩ := ih hrest
        refine ⟨n + 1, Nat.succ_lt_succ hn, ?_⟩
        rw [hfront, heq, List.take_succ_cons, buildChars_cons]
      · cases extra with
        | nil =>
          rw [List.nil_append] at hrest
          obtain ⟨n, hn, heq⟩ := ih (hrest.symm.trans (List.nil_append _).symm)
          refine ⟨n + 1, Nat.succ_lt_succ hn, ?_⟩
          rw [List.take_succ_cons, buildChars_cons, ← heq, hsegment, List.append_nil,
            List.append_nil]
        | cons d extra =>
          rw [List.cons_append, List.cons.injEq] at hrest
          exfalso
          apply slash_notMem_escape segment.toList
          rw [hsegment, hrest.1]
          exact List.mem_append_right _ List.mem_cons_self

/-- The pointer of fewer segments lies above. -/
theorem isDescendant_build_take {segments : List String} {n : Nat} (h : n < segments.length) :
    isDescendant (build (segments.take n)) (build segments) = true := by
  have hsplit : segments = segments.take n ++ segments[n] :: segments.drop (n + 1) := by
    rw [← List.drop_eq_getElem_cons h, List.take_append_drop]
  have htext := congrArg buildChars hsplit
  rw [buildChars_append, buildChars_cons] at htext
  apply isDescendant_of_toList (escape segments[n].toList ++ buildChars (segments.drop (n + 1)))
  rw [toList_build, toList_build]
  exact htext

/-- Above a canonical pointer stand the pointers of the proper prefixes of its segments. -/
theorem isDescendant_build_iff {ancestor : String} {segments : List String} :
    isDescendant ancestor (build segments) = true ↔
      ∃ n < segments.length, ancestor = build (segments.take n) := by
  constructor
  · intro h
    by_cases he : ancestor = ""
    · subst he
      cases segments with
      | nil => exact absurd rfl (isDescendant_empty_iff.1 h)
      | cons segment rest => exact ⟨0, Nat.zero_lt_succ _, rfl⟩
    · obtain ⟨rest, hrest⟩ := (isDescendant_iff_of_ne he).1 h
      rw [toList_build] at hrest
      obtain ⟨n, hn, heq⟩ := eq_take_of_buildChars_eq hrest
      refine ⟨n, hn, String.toList_inj.1 ?_⟩
      rw [heq, toList_build]
  · rintro ⟨n, hn, rfl⟩
    exact isDescendant_build_take hn

/-- Of two canonical pointers one lies above the other if its segments are a proper prefix. -/
theorem isDescendant_build_build_iff {xs ys : List String} :
    isDescendant (build xs) (build ys) = true ↔ xs <+: ys ∧ xs ≠ ys := by
  rw [isDescendant_build_iff]
  constructor
  · rintro ⟨n, hn, h⟩
    obtain rfl := build_injective h
    refine ⟨List.take_prefix n ys, fun hall => ?_⟩
    have hlength := congrArg List.length hall
    rw [List.length_take, Nat.min_eq_left (Nat.le_of_lt hn)] at hlength
    exact Nat.ne_of_lt hn hlength
  · rintro ⟨hbegins, hne⟩
    have hlt : xs.length < ys.length :=
      Nat.lt_of_le_of_ne hbegins.length_le fun hlength => hne (hbegins.eq_of_length hlength)
    exact ⟨xs.length, hlt, congrArg build (List.prefix_iff_eq_take.1 hbegins)⟩

/-- A canonical pointer above any other one is the pointer of a proper prefix of its segments. -/
theorem eq_take_of_isDescendant {above segments : List String} {pointer : String}
    (hparse : parse pointer = .ok segments) (h : isDescendant (build above) pointer = true) :
    above = [] ∨ ∃ n < segments.length, above = segments.take n := by
  cases above with
  | nil => exact Or.inl rfl
  | cons first more =>
    right
    have hne : build (first :: more) ≠ "" := by
      intro hempty
      cases build_injective (hempty.trans build_nil.symm)
    obtain ⟨lower, htext⟩ := (isDescendant_iff_of_ne hne).1 h
    rw [toList_build, buildChars_cons, List.cons_append] at htext
    rcases toList_of_parse hparse with ⟨rfl | rfl, -⟩ | ⟨c, rest, htext', rfl⟩
    · cases htext
    · exact absurd (List.cons.inj htext).2.symm
        (List.append_ne_nil_of_right_ne_nil _ (List.cons_ne_nil _ _))
    · -- Behind the first slash the text falls into the segments above and what is left.
      rw [htext'] at htext
      rw [(List.cons.inj htext).2, pieces_append, pieces_escape_append, List.map_append,
        map_decode_escape]
      refine ⟨(first :: more).length, ?_, List.take_left.symm⟩
      rw [List.length_append]
      exact Nat.lt_add_of_pos_right
        (List.length_pos_iff.2 fun hnil => pieces_ne_nil _ (List.map_eq_nil_iff.1 hnil))

/-! ### Text and segments -/

/-- Without its last segment a canonical pointer is the one of the segments before. A lone slash is
read as the root, and the root is what stands above it either way. -/
theorem parent_build_concat (segments : List String) (segment : String) :
    parent (build (segments ++ [segment])) = .ok (build segments) := by
  by_cases hslash : segments ++ [segment] = [""]
  · have hnil : segments = [] := by simpa using congrArg List.dropLast hslash
    rw [hslash, hnil]
    rfl
  · rw [parent, parse_build hslash]
    exact congrArg (fun above => Except.ok (build above)) List.dropLast_concat

/-- On canonical pointers the operations on the text are the ones on the segments: to append one, to
drop the last, to name the last, and to compare by proper prefix. -/
theorem text_operations_on_segments (xs ys : List String) (segment : String) :
    append (build xs) segment = build (xs ++ [segment]) ∧
      parent (build (xs ++ [segment])) = .ok (build xs) ∧
      lastSegment? (build (xs ++ [segment])) = some segment ∧
      (isDescendant (build xs) (build ys) = true ↔ xs <+: ys ∧ xs ≠ ys) := by
  refine ⟨append_build xs segment, parent_build_concat xs segment, ?_,
    isDescendant_build_build_iff⟩
  rw [← append_build]
  exact lastSegment?_append (build xs) segment

end SchemaForm.Pointer
