import SchemaForm.Proofs.Pointer

/-!
# Pointers read and written back

Segments that are written as a pointer are read back, but for a single empty segment, whose pointer
is the second spelling of the root. A text is a pointer if it is empty or starts with a slash, and
it comes back as it was read exactly if every `~` in it starts an escape and it is not that second
spelling. Reading a segment in one pass comes to replacing every `~1` first and every `~0` then.
-/

namespace SchemaForm.Pointer

/-! ### One replacement after the other -/

/-- Every `c` of a text replaced by other characters. -/
def replaceChar (c : Char) (replacement : List Char) (text : List Char) : List Char :=
  text.flatMap fun d => if d = c then replacement else [d]

/-- Every pair of two characters in a row replaced by one character, from left to right. -/
def replacePair (first second replacement : Char) : List Char → List Char
  | c :: d :: rest =>
    if c = first ∧ d = second then
      replacement :: replacePair first second replacement rest
    else
      c :: replacePair first second replacement (d :: rest)
  | rest => rest

/-- A segment is written by replacing every `~` first and every slash then. -/
theorem escape_eq_replaceChar (segment : List Char) :
    escape segment = replaceChar '/' ['~', '1'] (replaceChar '~' ['~', '0'] segment) := by
  unfold replaceChar
  rw [escape, List.flatMap_assoc]
  congr 1
  funext c
  by_cases htilde : c = '~'
  · simp [escapeChar, htilde]
  · simp [escapeChar, htilde]

theorem replacePair_cons_of_ne {first second replacement c : Char} (h : c ≠ first)
    (rest : List Char) :
    replacePair first second replacement (c :: rest) =
      c :: replacePair first second replacement rest := by
  cases rest with
  | nil => rfl
  | cons d rest => simp [replacePair, h]

/-- A replacement leaves the first character as it is or puts its own one there. -/
theorem exists_replacePair_cons (first second replacement c : Char) (rest : List Char) :
    ∃ d more, replacePair first second replacement (c :: rest) = d :: more ∧
      (d = c ∨ d = replacement) := by
  cases rest with
  | nil => exact ⟨c, [], rfl, Or.inl rfl⟩
  | cons d rest =>
    by_cases hpair : c = first ∧ d = second
    · exact ⟨replacement, _, by rw [replacePair, if_pos hpair], Or.inr rfl⟩
    · exact ⟨c, _, by rw [replacePair, if_neg hpair], Or.inl rfl⟩

/-- A segment is read by replacing every `~1` first and every `~0` then. -/
theorem unescape_eq_replacePair (text : List Char) :
    unescape text = replacePair '~' '0' '~' (replacePair '~' '1' '/' text) := by
  fun_induction unescape text with
  | case1 rest ih =>
    rw [replacePair, if_pos ⟨rfl, rfl⟩, replacePair_cons_of_ne (by decide), ih]
  | case2 rest ih =>
    have hinner : replacePair '~' '1' '/' ('~' :: '0' :: rest) =
        '~' :: '0' :: replacePair '~' '1' '/' rest := by
      rw [replacePair, if_neg (by decide), replacePair_cons_of_ne (by decide)]
    rw [hinner, replacePair, if_pos ⟨rfl, rfl⟩, ih]
  | case3 c rest hone hzero ih =>
    by_cases hc : c = '~'
    · subst hc
      cases rest with
      | nil => rfl
      | cons d rest =>
        have hone' : d ≠ '1' := fun h => hone rest rfl (by rw [h])
        have hzero' : d ≠ '0' := fun h => hzero rest rfl (by rw [h])
        -- What follows the `~` is no zero after the first replacement either.
        obtain ⟨e, more, heq, he⟩ := exists_replacePair_cons '~' '1' '/' d rest
        have he' : e ≠ '0' := by
          rcases he with rfl | rfl
          · exact hzero'
          · decide
        rw [replacePair, if_neg (by simp [hone']), heq, replacePair, if_neg (by simp [he']), ih,
          heq]
    · rw [replacePair_cons_of_ne hc, replacePair_cons_of_ne hc, ih]
  | case4 => rfl

/-! ### Texts whose escapes are complete -/

/-- Every `~` of the text is followed by `0` or `1`. -/
def Escaped (text : List Char) : Prop :=
  ∀ front rest, text = front ++ '~' :: rest → rest.head? = some '0' ∨ rest.head? = some '1'

theorem escaped_nil : Escaped [] := by
  intro front rest h
  simp at h

theorem escaped_cons_iff {c : Char} {rest : List Char} :
    Escaped (c :: rest) ↔
      (c = '~' → rest.head? = some '0' ∨ rest.head? = some '1') ∧ Escaped rest := by
  constructor
  · intro h
    constructor
    · rintro rfl
      exact h [] rest rfl
    · intro front rest' heq
      exact h (c :: front) rest' (by rw [heq, List.cons_append])
  · rintro ⟨hfirst, hrest⟩ front rest' heq
    cases front with
    | nil =>
      obtain ⟨rfl, rfl⟩ := List.cons.inj heq
      exact hfirst rfl
    | cons d front =>
      exact hrest front rest' (List.cons.inj heq).2

theorem escaped_cons_of_ne {c : Char} (h : c ≠ '~') {rest : List Char} :
    Escaped (c :: rest) ↔ Escaped rest := by
  simp [escaped_cons_iff, h]

theorem escape_cons (c : Char) (rest : List Char) :
    escape (c :: rest) = escapeChar c ++ escape rest := rfl

/-- What was written comes back from reading exactly if its escapes are complete. -/
theorem escape_unescape_iff {piece : List Char} (h : '/' ∉ piece) :
    escape (unescape piece) = piece ↔ Escaped piece := by
  fun_induction unescape piece with
  | case1 rest ih =>
    have hrest : '/' ∉ rest := by simpa using h
    rw [escape_cons, escaped_cons_iff, escaped_cons_of_ne (by decide), ← ih hrest]
    simp [escapeChar]
  | case2 rest ih =>
    have hrest : '/' ∉ rest := by simpa using h
    rw [escape_cons, escaped_cons_iff, escaped_cons_of_ne (by decide), ← ih hrest]
    simp [escapeChar]
  | case3 c rest hone hzero ih =>
    obtain ⟨hslash, hrest⟩ : ¬ '/' = c ∧ '/' ∉ rest := by simpa using h
    rw [escape_cons]
    by_cases hc : c = '~'
    · -- A `~` that starts no escape is written as one.
      subst hc
      constructor
      · intro heq
        have htail : '0' :: escape (unescape rest) = rest := (List.cons.inj heq).2
        exact absurd htail.symm (hzero _ rfl)
      · intro hescaped
        have hnext := (escaped_cons_iff.1 hescaped).1 rfl
        cases rest with
        | nil => simp at hnext
        | cons d rest =>
          rcases hnext with hnext | hnext
          · exact absurd (by rw [Option.some.inj hnext]) (hzero rest rfl)
          · exact absurd (by rw [Option.some.inj hnext]) (hone rest rfl)
    · rw [escaped_cons_of_ne hc, ← ih hrest]
      simp [escapeChar, hc, Ne.symm hslash]
  | case4 => simp [escape, escaped_nil]

/-! ### The texts between the slashes -/

theorem slash_notMem_of_mem_pieces {text piece : List Char} (h : piece ∈ pieces text) :
    '/' ∉ piece := by
  induction text generalizing piece with
  | nil =>
    rw [List.mem_singleton.1 h]
    exact List.not_mem_nil
  | cons c rest ih =>
    rw [pieces] at h
    by_cases hc : c = '/'
    · rw [if_pos hc] at h
      rcases List.mem_cons.1 h with rfl | h
      · exact List.not_mem_nil
      · exact ih h
    · rw [if_neg hc] at h
      cases hrest : pieces rest with
      | nil => exact absurd hrest (pieces_ne_nil rest)
      | cons first more =>
        rw [hrest] at h ih
        rcases List.mem_cons.1 h with rfl | h
        · simpa [Ne.symm hc] using ih List.mem_cons_self
        · exact ih (List.mem_cons_of_mem _ h)

/-- Each piece behind a slash of its own is the text behind a slash. -/
theorem flatMap_pieces (text : List Char) :
    (pieces text).flatMap (fun piece => '/' :: piece) = '/' :: text := by
  induction text with
  | nil => rfl
  | cons c rest ih =>
    rw [pieces]
    by_cases hc : c = '/'
    · rw [if_pos hc, List.flatMap_cons, ih, hc]
      rfl
    · rw [if_neg hc]
      cases hrest : pieces rest with
      | nil => exact absurd hrest (pieces_ne_nil rest)
      | cons first more =>
        rw [hrest, List.flatMap_cons, List.cons_append] at ih
        rw [List.flatMap_cons, List.cons_append, List.cons_append, (List.cons.inj ih).2]

/-- No escape reaches over a slash. -/
theorem escaped_iff_pieces {text : List Char} :
    Escaped text ↔ ∀ piece ∈ pieces text, Escaped piece := by
  induction text with
  | nil => simp [pieces, escaped_nil]
  | cons c rest ih =>
    rw [pieces]
    by_cases hc : c = '/'
    · rw [if_pos hc, List.forall_mem_cons, ← ih, escaped_cons_of_ne (by rw [hc]; decide)]
      exact ⟨fun h => ⟨escaped_nil, h⟩, fun h => h.2⟩
    · rw [if_neg hc]
      cases hrest : pieces rest with
      | nil => exact absurd hrest (pieces_ne_nil rest)
      | cons first more =>
        -- The text and its first piece go on with the same character, or the piece ends.
        have hhead : ∀ d, d ≠ '/' → (rest.head? = some d ↔ first.head? = some d) := by
          intro d hd
          cases rest with
          | nil =>
            obtain ⟨rfl, -⟩ := List.cons.inj hrest
            rfl
          | cons e rest =>
            have hflat := flatMap_pieces (e :: rest)
            rw [hrest, List.flatMap_cons, List.cons_append] at hflat
            have hfirst := (List.cons.inj hflat).2
            cases first with
            | nil =>
              cases more with
              | nil => simp at hfirst
              | cons next more =>
                have he : '/' = e := (List.cons.inj hfirst).1
                simp [← he, Ne.symm hd]
            | cons f first =>
              have he : f = e := (List.cons.inj hfirst).1
              simp [he]
        rw [hrest] at ih
        rw [List.forall_mem_cons, escaped_cons_iff, escaped_cons_iff, ih, List.forall_mem_cons,
          hhead _ (by decide), hhead _ (by decide), and_assoc]

/-! ### Pointers -/

/-- The text starts with a slash. -/
def StartsWithSlash (pointer : String) : Prop := ∃ rest, pointer.toList = '/' :: rest

theorem parse_build_iff {segments : List String} :
    parse (build segments) = .ok segments ↔ segments ≠ [""] := by
  constructor
  · rintro h rfl
    rw [parse_slash] at h
    cases h
  · exact parse_build

/-- Whether a text can be read shows at its first character. -/
theorem exists_parse_iff {pointer : String} :
    (∃ segments, parse pointer = .ok segments) ↔ pointer = "" ∨ StartsWithSlash pointer := by
  constructor
  · rintro ⟨segments, h⟩
    rcases toList_of_parse h with ⟨rfl | rfl, -⟩ | ⟨c, rest, htext, -⟩
    · exact Or.inl rfl
    · exact Or.inr ⟨[], rfl⟩
    · exact Or.inr ⟨c :: rest, htext⟩
  · rintro (rfl | ⟨rest, htext⟩)
    · exact ⟨[], rfl⟩
    · cases rest with
      | nil => exact ⟨[], parse_eq_nil_iff.2 (Or.inr (String.toList_inj.1 htext))⟩
      | cons c rest => exact ⟨_, parse_of_toList htext⟩

/-- A text that cannot be read is named in the error. -/
theorem parse_eq_error_iff {pointer : String} {e : PathError} :
    parse pointer = .error e ↔
      e = .invalidPointer pointer ∧ pointer ≠ "" ∧ ¬ StartsWithSlash pointer := by
  rw [← not_or, ← exists_parse_iff]
  cases hparse : parse pointer with
  | ok segments => simp
  | error e' =>
    have hnamed : e' = .invalidPointer pointer := by
      unfold parse at hparse
      split at hparse <;> cases hparse
      rfl
    simp [hnamed, eq_comm]

/-- The segments read from a text are written as that text exactly if its escapes are complete. -/
theorem buildChars_decode_pieces_iff (text : List Char) :
    buildChars ((pieces text).map decode) = '/' :: text ↔ Escaped text := by
  have htoList : ∀ piece, (decode piece).toList = unescape piece := fun _ => String.toList_ofList
  rw [escaped_iff_pieces]
  constructor
  · intro h
    cases hpieces : pieces text with
    | nil => exact absurd hpieces (pieces_ne_nil text)
    | cons first more =>
      rw [hpieces, List.map_cons, buildChars_cons] at h
      -- Cut at its slashes, the written text falls into the written pieces.
      have hcut := pieces_escape_append (decode first) (more.map decode)
      rw [(List.cons.inj h).2, hpieces, ← List.map_cons, List.map_map] at hcut
      intro piece hpiece
      rw [← hpieces] at hpiece
      have hsame := List.map_inj_left.1 ((List.map_id _).trans hcut) piece (hpieces ▸ hpiece)
      rw [← escape_unescape_iff (slash_notMem_of_mem_pieces hpiece), ← htoList]
      exact hsame.symm
  · intro h
    rw [← flatMap_pieces text, buildChars, List.flatMap_map, List.flatMap_def, List.flatMap_def]
    congr 1
    refine List.map_congr_left fun piece hpiece => ?_
    rw [htoList, (escape_unescape_iff (slash_notMem_of_mem_pieces hpiece)).2 (h piece hpiece)]

/-- A text is written back as it was read if it is empty, or a slash and more in which every `~`
starts an escape. -/
theorem build_parse_iff {pointer : String} :
    (parse pointer).map build = .ok pointer ↔
      pointer = "" ∨ (StartsWithSlash pointer ∧ pointer ≠ "/" ∧ Escaped pointer.toList) := by
  by_cases hread : ∃ segments, parse pointer = .ok segments
  · obtain ⟨segments, hparse⟩ := hread
    rcases toList_of_parse hparse with ⟨rfl | rfl, rfl⟩ | ⟨c, rest, htext, rfl⟩
    · simp [hparse, Except.map]
    · simp [hparse, Except.map]
    · have hempty : pointer ≠ "" := by
        rintro rfl
        cases htext
      have hslash : pointer ≠ "/" := by
        rintro rfl
        cases htext
      have hwritten := buildChars_decode_pieces_iff (c :: rest)
      rw [← htext, ← toList_build, String.toList_inj] at hwritten
      rw [hparse, htext, escaped_cons_of_ne (by decide), ← hwritten]
      simp [Except.map, hempty, hslash, StartsWithSlash, htext]
  · have hnot := mt exists_parse_iff.2 hread
    rw [not_or] at hnot
    cases hparse : parse pointer with
    | ok segments => exact absurd ⟨segments, hparse⟩ hread
    | error e => simp [Except.map, hnot.1, hnot.2]

/-- Writing and reading pointers undo each other, but for the exceptions named: the single empty
segment on the one side, a lone slash and a `~` that starts no escape on the other. -/
theorem parse_build_inverse :
    (∀ segments, parse (build segments) = .ok segments ↔ segments ≠ [""]) ∧
      (∀ pointer, (∃ segments, parse pointer = .ok segments) ↔
        pointer = "" ∨ StartsWithSlash pointer) ∧
      ∀ pointer, (parse pointer).map build = .ok pointer ↔
        pointer = "" ∨ (StartsWithSlash pointer ∧ pointer ≠ "/" ∧ Escaped pointer.toList) :=
  ⟨fun _ => parse_build_iff, fun _ => exists_parse_iff, fun _ => build_parse_iff⟩

end SchemaForm.Pointer
