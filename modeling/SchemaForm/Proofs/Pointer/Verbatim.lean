import SchemaForm.Proofs.Pointer.RoundTrip

/-!
# Segments written without escapes

`bare` puts segments behind slashes as they are. Such a pointer names the segments that were put
there just if each of them is verbatim: it holds no slash, at which it would be cut in two, and
neither of the escapes `~0` and `~1`, which would be read as something else.
-/

namespace SchemaForm.Pointer

/-- The segments behind slashes, as they are. -/
def bareChars (segments : List String) : List Char :=
  segments.flatMap fun segment => '/' :: segment.toList

/-- The pointer that has the segments behind slashes as they are. -/
def bare (segments : List String) : String := String.ofList (bareChars segments)

/-- The text is read as the segment that it is. -/
structure Verbatim (segment : String) : Prop where
  noSlash : '/' ∉ segment.toList
  noTilde : ¬ ['~', '0'] <:+: segment.toList
  noEscapedSlash : ¬ ['~', '1'] <:+: segment.toList

@[simp] theorem toList_bare (segments : List String) :
    (bare segments).toList = bareChars segments :=
  String.toList_ofList

theorem bareChars_cons (segment : String) (segments : List String) :
    bareChars (segment :: segments) = '/' :: (segment.toList ++ bareChars segments) := rfl

theorem bare_nil : bare [] = "" := rfl

theorem bare_append (xs ys : List String) : bare (xs ++ ys) = bare xs ++ bare ys := by
  apply String.toList_inj.1
  rw [String.toList_append, toList_bare, toList_bare, toList_bare]
  exact List.flatMap_append

theorem bare_singleton (segment : String) : bare [segment] = "/" ++ segment := by
  apply String.toList_inj.1
  rw [String.toList_append, toList_bare, bareChars, List.flatMap_singleton]
  rfl

/-! ### Reading one segment -/

theorem length_unescape_le (text : List Char) : (unescape text).length ≤ text.length := by
  fun_induction unescape text <;> simp only [List.length_cons, List.length_nil] <;> omega

/-- A text without escapes is read as it is. -/
theorem unescape_eq_self_iff {text : List Char} :
    unescape text = text ↔ ¬ ['~', '0'] <:+: text ∧ ¬ ['~', '1'] <:+: text := by
  fun_induction unescape text with
  | case1 rest ih =>
    have hlength := length_unescape_le rest
    constructor
    · intro h
      have := congrArg List.length h
      simp only [List.length_cons] at this
      omega
    · rintro ⟨-, hslash⟩
      exact absurd (List.prefix_append ['~', '1'] rest).isInfix hslash
  | case2 rest ih =>
    have hlength := length_unescape_le rest
    constructor
    · intro h
      have := congrArg List.length h
      simp only [List.length_cons] at this
      omega
    · rintro ⟨htilde, -⟩
      exact absurd (List.prefix_append ['~', '0'] rest).isInfix htilde
  | case3 c rest hslash htilde ih =>
    have hfirst : ∀ d : Char, ['~', d] <+: c :: rest → ∃ more, c = '~' ∧ rest = d :: more := by
      rintro d ⟨more, heq⟩
      obtain ⟨rfl, rfl⟩ := List.cons.inj heq
      exact ⟨more, rfl, rfl⟩
    rw [List.cons_inj_right, ih, List.infix_cons_iff, List.infix_cons_iff, not_or, not_or]
    constructor
    · rintro ⟨hzero, hone⟩
      refine ⟨⟨fun h => ?_, hzero⟩, fun h => ?_, hone⟩
      · obtain ⟨more, hc, hrest⟩ := hfirst '0' h
        exact htilde more hc hrest
      · obtain ⟨more, hc, hrest⟩ := hfirst '1' h
        exact hslash more hc hrest
    · rintro ⟨⟨-, hzero⟩, -, hone⟩
      exact ⟨hzero, hone⟩
  | case4 => simp

theorem verbatim_iff {segment : String} :
    Verbatim segment ↔ '/' ∉ segment.toList ∧ decode segment.toList = segment := by
  have hdecode : decode segment.toList = segment ↔ unescape segment.toList = segment.toList := by
    rw [decode, ← String.toList_inj, String.toList_ofList]
  rw [hdecode, unescape_eq_self_iff]
  constructor
  · rintro ⟨hslash, hzero, hone⟩
    exact ⟨hslash, hzero, hone⟩
  · rintro ⟨hslash, hzero, hone⟩
    exact ⟨hslash, hzero, hone⟩

instance (segment : String) : Decidable (Verbatim segment) :=
  decidable_of_iff _ verbatim_iff.symm

/-! ### Reading segments -/

/-- Behind its first slash a pointer without escapes falls into the texts between the slashes of its
segments. -/
theorem pieces_bareChars (segment : String) (rest : List String) :
    pieces (segment.toList ++ bareChars rest) =
      (segment :: rest).flatMap fun s => pieces s.toList := by
  induction rest generalizing segment with
  | nil =>
    rw [bareChars, List.flatMap_nil, List.append_nil, List.flatMap_singleton]
  | cons next rest ih =>
    rw [bareChars_cons, pieces_append, ih]
    rfl

theorem flatMap_pieces_of_notMem {segments : List String}
    (h : ∀ segment ∈ segments, '/' ∉ segment.toList) :
    (segments.flatMap fun s => pieces s.toList) = segments.map String.toList := by
  induction segments with
  | nil => rfl
  | cons segment rest ih =>
    rw [List.forall_mem_cons] at h
    rw [List.flatMap_cons, pieces_of_notMem h.1, ih h.2]
    rfl

/-- A slash in a segment makes more texts than there are segments. -/
theorem notMem_of_length_flatMap_pieces {segments : List String}
    (h : (segments.flatMap fun s => pieces s.toList).length ≤ segments.length) :
    ∀ segment ∈ segments, '/' ∉ segment.toList := by
  have hle : ∀ rest : List String,
      rest.length ≤ (rest.flatMap fun s => pieces s.toList).length := by
    intro rest
    induction rest with
    | nil => exact Nat.le_refl 0
    | cons segment rest ih =>
      rw [List.flatMap_cons, List.length_append, length_pieces, List.length_cons]
      omega
  induction segments with
  | nil => simp
  | cons segment rest ih =>
    rw [List.flatMap_cons, List.length_append, length_pieces, List.length_cons] at h
    have hrest := hle rest
    rw [List.forall_mem_cons]
    exact ⟨List.count_eq_zero.1 (by omega), ih (by omega)⟩

/-- Segments without slashes are told apart by what stands between the slashes. -/
theorem eq_of_bare_eq {xs ys : List String} (hxs : ∀ segment ∈ xs, '/' ∉ segment.toList)
    (hys : ∀ segment ∈ ys, '/' ∉ segment.toList) (h : bare xs = bare ys) : xs = ys := by
  have hchars := congrArg String.toList h
  rw [toList_bare, toList_bare] at hchars
  cases xs with
  | nil =>
    cases ys with
    | nil => rfl
    | cons y ys => cases hchars
  | cons x xs =>
    cases ys with
    | nil => cases hchars
    | cons y ys =>
      rw [bareChars_cons, bareChars_cons] at hchars
      have hpieces := congrArg pieces (List.cons.inj hchars).2
      rw [pieces_bareChars, pieces_bareChars, flatMap_pieces_of_notMem hxs,
        flatMap_pieces_of_notMem hys] at hpieces
      exact (List.map_inj_right fun _ _ => String.toList_inj.1).1 hpieces

/-- A pointer without escapes names the segments that it was made of if they are all verbatim. -/
theorem parse_bare_iff {segments : List String} (h : segments ≠ [""]) :
    parse (bare segments) = .ok segments ↔ ∀ segment ∈ segments, Verbatim segment := by
  cases segments with
  | nil => exact ⟨fun _ => by simp, fun _ => rfl⟩
  | cons segment rest =>
    have htext := toList_bare (segment :: rest)
    rw [bareChars_cons] at htext
    have hparse : parse (bare (segment :: rest)) =
        .ok (((segment :: rest).flatMap fun s => pieces s.toList).map decode) := by
      rw [← pieces_bareChars]
      cases hchars : segment.toList ++ bareChars rest with
      | nil =>
        obtain ⟨hsegment, hrest⟩ := List.append_eq_nil_iff.1 hchars
        have hempty : segment = "" := String.toList_inj.1 hsegment
        cases rest with
        | nil => exact absurd (by rw [hempty]) h
        | cons next rest => cases hrest
      | cons c more =>
        rw [hchars] at htext
        exact parse_of_toList htext
    rw [hparse, Except.ok.injEq]
    constructor
    · intro hsame
      have hlength := congrArg List.length hsame
      rw [List.length_map] at hlength
      have hslash := notMem_of_length_flatMap_pieces (Nat.le_of_eq hlength)
      rw [flatMap_pieces_of_notMem hslash, List.map_map] at hsame
      have hdecode := List.map_inj_left.1 (hsame.trans (List.map_id _).symm)
      exact fun s hs => verbatim_iff.2 ⟨hslash s hs, hdecode s hs⟩
    · intro hverbatim
      have hslash : ∀ s ∈ segment :: rest, '/' ∉ s.toList := fun s hs => (hverbatim s hs).noSlash
      rw [flatMap_pieces_of_notMem hslash, List.map_map]
      refine (List.map_congr_left fun s hs => ?_).trans (List.map_id _)
      exact (verbatim_iff.1 (hverbatim s hs)).2

end SchemaForm.Pointer
