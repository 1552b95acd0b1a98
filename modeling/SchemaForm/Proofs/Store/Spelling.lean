import SchemaForm.Proofs.Json.Lens
import SchemaForm.Proofs.Pipeline.Nesting
import SchemaForm.Proofs.Pipeline.Seeding
import SchemaForm.Proofs.Pipeline.Selection
import SchemaForm.Proofs.Store.Notification

/-!
# Spellings of a pointer

Pointers with the same segments lead to the same place in the data, but choices, touched paths and
listeners are kept under the text of a pointer, and the path of an element is that text with one
more segment. So an edit at another spelling does the same, except that

* an element of the root array is not found behind the lone slash;
* a choice counts only where the walk over the schema meets the very text under which it is noted;
* a listener below the root hears of an edit at its own text, and not of one at another spelling.
-/

namespace SchemaForm

/-! ### Edits side by side -/

/-- An error without the pointer that it names. -/
def PathError.unlocated : PathError → PathError
  | .invalidPointer _ => .invalidPointer ""
  | .invalidArrayIndex _ segment => .invalidArrayIndex "" segment

/-- An error without the pointer that it names. -/
def PipelineError.unlocated : PipelineError → PipelineError
  | .path error => .path error.unlocated
  | .nextCalledMultipleTimes stage => .nextCalledMultipleTimes stage

/-- Whether an operation was accepted, and else which error refused it. -/
def Change.verdict (change : Change) : Except PipelineError Unit :=
  (change.outcome.result.map fun _ => ()).mapError PipelineError.unlocated

namespace Edit

/-- The same edit with another pointer. -/
def respelled (other : String) : Edit → Edit
  | .setData _ value => .setData other value
  | .setCombinatorIndex _ index => .setCombinatorIndex other index
  | .appendItem _ item => .appendItem other item
  | .insertItem _ index item => .insertItem other index item
  | .removeItem _ index => .removeItem other index
  | .replaceItem _ index item => .replaceItem other index item
  | .moveItem _ source target => .moveItem other source target
  | .swapItems _ i j => .swapItems other i j
  | .clearItems _ => .clearItems other

/-- The edit replaces an element of the root array, and the root is written as a lone slash. -/
def Misled (edit : Edit) (data : Option Json) : Prop :=
  ∃ index item items, edit = .replaceItem "/" index item ∧ data = some (.arr items) ∧
    index < items.length

@[simp] theorem path_respelled (edit : Edit) (other : String) :
    (edit.respelled other).path = other := by
  cases edit <;> rfl

@[simp] theorem respelled_path (edit : Edit) : edit.respelled edit.path = edit := by
  cases edit <;> rfl

@[simp] theorem respelled_respelled (edit : Edit) (first second : String) :
    (edit.respelled first).respelled second = edit.respelled second := by
  cases edit <;> rfl

end Edit

namespace Store

open Pipeline

/-- Among those who are told is a listener at this very text, which is not the root. -/
def Tells (s : Store) (told : List Notification) (path : String) : Prop :=
  path ≠ "" ∧ ∃ id ∈ s.listeners.listenersAt path, ∃ node, .path id node ∈ told

/-- If the edit is a choice: whichever of the two spellings it is noted under, at the path of every
choice that counts the same number is noted. -/
def ChoosesAlike [Patterns] (s : Store) (edit : Edit) (other : String) : Prop :=
  ∀ path index, edit = .setCombinatorIndex path index →
    let choices := s.selections.insert path index
    let others := s.selections.insert other index
    let schema := situated (Schema.prepare s.schema) s.data
    Selection.Agree choices others (Selection.resolve choices schema "").2 ∧
      Selection.Agree choices others (Selection.resolve others schema "").2

/-- Two operations at different texts that do the same, except that each leaves out the listeners at
the text of the other one. -/
structure Alike (s : Store) (p q : String) (change other : Change) : Prop where
  verdict : change.verdict = other.verdict
  model : change.store.model = other.store.model
  told : change.told = other.told ↔ p = q ∨ ¬ s.Tells change.told p ∧ ¬ s.Tells other.told q

/-! ### Who hears of an edit -/

section Hearing

variable {before : FormModel} {t : Store} {p q : String} {segments : List String}
  {deps : ConditionalDeps} {dirty dirty' : SortedSet}

/-- Every field stands at a canonical pointer. -/
def Canonical (m : FormModel) : Prop :=
  ∀ path n, m.get? path = some n → ∃ above, path = Pointer.build above

theorem canonical_plainModel [Patterns] (prepared : Json) (data : Option Json)
    (selections : Selections) : Canonical (plainModel prepared data selections) := by
  intro path n hn
  obtain ⟨m, hm, -⟩ := (sameForm_plainModel prepared data selections).exists_get? hn
  exact FieldTree.exists_segments_of_get?_build hm

/-- The notifications of a path do not change where the path is affected either way. -/
theorem pathNotifications_congr {after : FormModel} {path : String} {ids : List Nat}
    (h : ∀ id ∈ ids, ∀ node, after.get? path = some node →
      Dirty.differs (before.get? path) node = true →
        (Dirty.affects path dirty = true ↔ Dirty.affects path dirty' = true)) :
    pathNotifications before after dirty path ids =
      pathNotifications before after dirty' path ids := by
  unfold pathNotifications
  cases hnode : after.get? path with
  | none => simp
  | some node =>
    cases hdiffers : Dirty.differs (before.get? path) node with
    | false => simp [hdiffers]
    | true =>
      cases ids with
      | nil => simp
      | cons id rest => simp [h id List.mem_cons_self node hnode hdiffers]

/-- What one spelling affects, the other one affects too, unless a listener at the very text is
told. -/
theorem affects_of_not_tells (hp : Pointer.parse p = .ok segments)
    (hq : Pointer.parse q = .ok segments) (hdeps : deps.Upward)
    (hdirty : Dirty.paths p deps = .ok dirty) (hdirty' : Dirty.paths q deps = .ok dirty')
    (hcanonical : Canonical t.model) (hsilent : ¬ t.Tells (notifications before dirty t) p)
    {path : String} {id : Nat} {node : FieldNode} (hid : id ∈ t.listeners.listenersAt path)
    (hnode : t.model.get? path = some node)
    (hdiffers : Dirty.differs (before.get? path) node = true)
    (h : Dirty.affects path dirty = true) : Dirty.affects path dirty' = true := by
  obtain ⟨above, rfl⟩ := hcanonical path node hnode
  have hheard : .path id node ∈ notifications before dirty t := by
    rw [notifications_eq]
    refine List.mem_append_left _ (List.mem_append_left _ (mem_heard_iff.2 ?_))
    exact ⟨_, id, node, rfl, hid, h, hnode, hdiffers⟩
  rw [Dirty.affects_build_iff hq hdeps hdirty']
  rcases (Dirty.affects_build_iff hp hdeps hdirty).1 h with heq | hprefix
  · -- What is affected at its own text is the root, or a listener there would be told.
    have hroot : Pointer.build above = "" := by
      by_cases hempty : Pointer.build above = ""
      · exact hempty
      · exact absurd ⟨heq ▸ hempty, id, heq ▸ hid, node, hheard⟩ hsilent
    exact Or.inr (Pointer.mem_ofPrefixes_dropLast_iff.2 (Or.inl hroot))
  · exact Or.inr hprefix

/-- A listener at the very text below the root is told by one spelling alone. -/
theorem exists_notMem_of_tells (hsound : t.listeners.Sound)
    (hp : Pointer.parse p = .ok segments) (hq : Pointer.parse q = .ok segments)
    (hdeps : deps.Upward) (hdirty' : Dirty.paths q deps = .ok dirty')
    (hcanonical : Canonical t.model) (hne : p ≠ q)
    (h : t.Tells (notifications before dirty t) p) :
    ∃ notification ∈ notifications before dirty t,
      notification ∉ notifications before dirty' t := by
  obtain ⟨hroot, id, hid, node, hmem⟩ := h
  refine ⟨.path id node, hmem, fun hmem' => ?_⟩
  obtain ⟨path, id', node', heq, hid', haffects, hnode, -⟩ :=
    mem_heard_iff.1 (mem_heard_of_path hmem')
  cases heq
  obtain rfl := hsound.path_unique hid hid'
  obtain ⟨above, rfl⟩ := hcanonical p node hnode
  -- The other spelling would affect this text as its own or as that of a proper prefix.
  rcases (Dirty.affects_build_iff hq hdeps hdirty').1 haffects with heq | hprefix
  · exact hne heq
  · exact Pointer.notMem_ofPrefixes_dropLast hp hroot hprefix

/-- The two spellings tell the same unless a listener at one of the two texts is told. -/
theorem notifications_eq_iff (hsound : t.listeners.Sound) (hp : Pointer.parse p = .ok segments)
    (hq : Pointer.parse q = .ok segments) (hdeps : deps.Upward)
    (hdirty : Dirty.paths p deps = .ok dirty) (hdirty' : Dirty.paths q deps = .ok dirty')
    (hcanonical : Canonical t.model) :
    notifications before dirty t = notifications before dirty' t ↔
      p = q ∨ ¬ t.Tells (notifications before dirty t) p ∧
        ¬ t.Tells (notifications before dirty' t) q := by
  constructor
  · intro heq
    by_cases hpq : p = q
    · exact Or.inl hpq
    · refine Or.inr ⟨fun htells => ?_, fun htells => ?_⟩
      · obtain ⟨notification, hmem, hnot⟩ :=
          exists_notMem_of_tells hsound hp hq hdeps hdirty' hcanonical hpq htells
        exact hnot (heq ▸ hmem)
      · obtain ⟨notification, hmem, hnot⟩ :=
          exists_notMem_of_tells hsound hq hp hdeps hdirty hcanonical (Ne.symm hpq) htells
        exact hnot (heq ▸ hmem)
  · rintro (rfl | ⟨hsilent, hsilent'⟩)
    · rw [hdirty] at hdirty'
      cases hdirty'
      rfl
    · have hheard : heard before dirty t = heard before dirty' t := by
        unfold heard
        refine List.flatMap_congr fun entry hentry => pathNotifications_congr ?_
        intro id hid node hnode hdiffers
        have hlistens : id ∈ t.listeners.listenersAt entry.1 :=
          Registry.mem_listenersAt_iff.2 ⟨entry.2, hentry, hid⟩
        constructor
        · exact affects_of_not_tells hp hq hdeps hdirty hdirty' hcanonical hsilent hlistens hnode
            hdiffers
        · exact affects_of_not_tells hq hp hdeps hdirty' hdirty hcanonical hsilent' hlistens hnode
            hdiffers
      rw [notifications_eq, notifications_eq, hheard]

end Hearing

/-! ### The same edit at two spellings -/

section Pair

variable {s : Store} {p q : String} {segments : List String}

theorem Alike.refl (change : Change) (path : String) : s.Alike path path change change :=
  ⟨rfl, rfl, iff_of_true rfl (Or.inl rfl)⟩

theorem not_tells_nil (s : Store) (path : String) : ¬ s.Tells [] path := by
  rintro ⟨-, id, -, node, hmem⟩
  cases hmem

/-- Two operations that leave the model and tell nobody. -/
theorem Alike.of_silent {change other : Change} (hverdict : change.verdict = other.verdict)
    (hmodel : change.store.model = other.store.model) (htold : change.told = [])
    (htold' : other.told = []) : s.Alike p q change other := by
  refine ⟨hverdict, hmodel, ?_⟩
  rw [htold, htold']
  exact iff_of_true rfl (Or.inr ⟨not_tells_nil s p, not_tells_nil s q⟩)

theorem alike_unchanged (s : Store) (p q : String) : s.Alike p q s.unchanged s.unchanged :=
  .of_silent rfl rfl rfl rfl

theorem alike_refused {e e' : PathError} (h : e.unlocated = e'.unlocated) :
    s.Alike p q (s.refused e) (s.refused e') := by
  have hverdict : (s.refused e).verdict = (s.refused e').verdict :=
    congrArg (fun error => Except.error (PipelineError.path error)) h
  exact .of_silent hverdict rfl rfl rfl

/-- What listeners are told depends on the model, the first data and the listeners of a store. -/
theorem notifications_congr {t t' : Store} (hmodel : t.model = t'.model)
    (hinitial : t.initialData = t'.initialData) (hlisteners : t.listeners = t'.listeners)
    (before : FormModel) (dirty : SortedSet) :
    notifications before dirty t = notifications before dirty t' := by
  unfold notifications formState
  rw [hmodel, hinitial, hlisteners]

/-- Two commits of the same data whose selections give the same model. -/
theorem alike_commit [Patterns] (hs : Plain s) (hp : Pointer.parse p = .ok segments)
    (hq : Pointer.parse q = .ok segments) {data : Option Json} {dirty dirty' : SortedSet}
    (hdirty : Dirty.paths p s.model.conditionalDeps = .ok dirty)
    (hdirty' : Dirty.paths q s.model.conditionalDeps = .ok dirty') {choices others : Selections}
    (hmodel : plainModel (Schema.prepare s.schema) data choices =
      plainModel (Schema.prepare s.schema) data others) :
    s.Alike p q (commit { s with selections := choices } data dirty)
      (commit { s with selections := others } data dirty') := by
  obtain ⟨cache, -, hcommit⟩ :=
    commit_default (s := { s with selections := choices }) hs.config hs.cache data dirty
  obtain ⟨cache', -, hcommit'⟩ :=
    commit_default (s := { s with selections := others }) hs.config hs.cache data dirty'
  rw [hcommit, hcommit']
  refine ⟨rfl, hmodel, ?_⟩
  have hsame : notifications s.model dirty' (renewed { s with selections := others } cache' data) =
      notifications s.model dirty' (renewed { s with selections := choices } cache data) := by
    refine notifications_congr ?_ ?_ ?_ s.model dirty'
    · exact hmodel.symm
    · rfl
    · rfl
  have hcanonical : Canonical (renewed { s with selections := choices } cache data).model :=
    canonical_plainModel _ _ _
  show notifications _ _ _ = notifications _ _ _ ↔ _
  rw [hsame]
  exact notifications_eq_iff hs.listeners hp hq hs.upward hdirty hdirty' hcanonical

/-- A write at a pointer that can be read, in terms of the segments. -/
theorem setData_of_parse [Patterns] (hp : Pointer.parse p = .ok segments) {dirty : SortedSet}
    (hdirty : Dirty.paths p s.model.conditionalDeps = .ok dirty) (value : Json) :
    s.setData p value =
      if (Json.atSegments? s.data segments).any fun v => v.identical value then s.unchanged
      else
        match Json.setSegments p value segments (s.data.getD .null) with
        | .ok data => s.commit (some data) dirty
        | .error e => s.refused e := by
  unfold setData
  rw [Json.getAt_of_parse hp, Json.setAt_of_parse hp, hdirty]
  dsimp only
  split
  · rfl
  · cases Json.setSegments p value segments (s.data.getD .null) <;> rfl

theorem alike_setData [Patterns] (hs : Plain s) (hp : Pointer.parse p = .ok segments)
    (hq : Pointer.parse q = .ok segments) (value : Json) :
    s.Alike p q (s.setData p value) (s.setData q value) := by
  obtain ⟨dirty, hdirty⟩ := Dirty.exists_paths_iff.2 ⟨segments, hp⟩
  obtain ⟨dirty', hdirty'⟩ := Dirty.exists_paths_iff.2 ⟨segments, hq⟩
  rw [setData_of_parse hp hdirty, setData_of_parse hq hdirty']
  split
  · exact alike_unchanged s p q
  · generalize hwritten : Json.setSegments p value segments (s.data.getD .null) = written
    generalize hwritten' : Json.setSegments q value segments (s.data.getD .null) = written'
    have hsame := Json.sameWrite_setSegments p q value (s.data.getD .null) segments
    rw [hwritten, hwritten'] at hsame
    cases hsame with
    | fails hmem => exact alike_refused rfl
    | writes document => exact alike_commit hs hp hq hdirty hdirty' rfl

theorem arrayAt_of_parse (hp : Pointer.parse p = .ok segments) :
    s.arrayAt p = .ok ((Json.atSegments? s.data segments).bind Json.items?) := by
  rw [arrayAt, Json.getAt_of_parse hp]
  rfl

theorem alike_editItems [Patterns] (hs : Plain s) (hp : Pointer.parse p = .ok segments)
    (hq : Pointer.parse q = .ok segments) (change : List Json → Option (List Json)) :
    s.Alike p q (s.editItems p change) (s.editItems q change) := by
  unfold editItems
  rw [arrayAt_of_parse hp, arrayAt_of_parse hq]
  dsimp only
  split
  · exact alike_unchanged s p q
  · exact alike_setData hs hp hq _

theorem alike_appendItem [Patterns] (hs : Plain s) (hp : Pointer.parse p = .ok segments)
    (hq : Pointer.parse q = .ok segments) (item : Json) :
    s.Alike p q (s.appendItem p item) (s.appendItem q item) := by
  unfold appendItem
  rw [arrayAt_of_parse hp, arrayAt_of_parse hq]
  exact alike_setData hs hp hq _

/-- An element in range of an array is written alike, unless one of the texts is the lone slash. -/
theorem alike_replaceItem [Patterns] (hs : Plain s) (hp : Pointer.parse p = .ok segments)
    (hq : Pointer.parse q = .ok segments) {index : Nat} {item : Json}
    (hmisled : ¬ (Edit.replaceItem p index item).Misled s.data)
    (hmisled' : ¬ (Edit.replaceItem q index item).Misled s.data) :
    s.Alike (Pointer.appendIndex p index) (Pointer.appendIndex q index)
      (s.replaceItem p index item) (s.replaceItem q index item) := by
  have hslash : ∀ path, Pointer.parse path = .ok segments →
      ¬ (Edit.replaceItem path index item).Misled s.data →
        (((Json.atSegments? s.data segments).bind Json.items?).any
          fun items => index < items.length) = true →
            Pointer.parse (Pointer.appendIndex path index) =
              .ok (segments ++ [toString index]) := by
    intro path hpath hdirect hrange
    refine Pointer.parse_append hpath ?_ (Pointer.toString_index_ne_empty index)
    rintro rfl
    cases hpath
    obtain ⟨items, hitems, hlt⟩ := (Option.any_eq_true _ _).1 hrange
    obtain ⟨v, hdata, hv⟩ := Option.bind_eq_some_iff.1 hitems
    cases v with
    | arr elements =>
      cases hv
      exact hdirect ⟨index, item, items, rfl, hdata, of_decide_eq_true hlt⟩
    | _ => cases hv
  unfold replaceItem
  rw [arrayAt_of_parse hp, arrayAt_of_parse hq]
  dsimp only
  split
  · next hrange =>
    exact alike_setData hs (hslash p hp hmisled hrange) (hslash q hq hmisled' hrange) item
  · exact alike_unchanged s _ _

/-- Choices that count alike make the same model. -/
theorem alike_setCombinatorIndex [Patterns] (hs : Plain s) (hp : Pointer.parse p = .ok segments)
    (hq : Pointer.parse q = .ok segments) {index : Nat}
    (h : s.ChoosesAlike (.setCombinatorIndex p index) q) :
    s.Alike p q (s.setCombinatorIndex p index) (s.setCombinatorIndex q index) := by
  obtain ⟨dirty, hdirty⟩ := Dirty.exists_paths_iff.2 ⟨segments, hp⟩
  obtain ⟨dirty', hdirty'⟩ := Dirty.exists_paths_iff.2 ⟨segments, hq⟩
  obtain ⟨hagree, hagree'⟩ := h p index rfl
  unfold setCombinatorIndex
  rw [hdirty, hdirty']
  exact alike_commit hs hp hq hdirty hdirty' (plainModel_congr hagree hagree')

/-! ### Verdicts -/

theorem verdict_setCombinatorIndex [Patterns] (hs : Plain s) (hp : Pointer.parse p = .ok segments)
    (index : Nat) : (s.setCombinatorIndex p index).verdict = .ok () := by
  obtain ⟨cache, told, h⟩ := hs.exists_setCombinatorIndex hp index
  rw [h]
  rfl

/-- A write does not fail at a segment that is none of its own. -/
theorem verdict_setData_ne [Patterns] (hs : Plain s) (hp : Pointer.parse p = .ok segments)
    {segment : String} (hsegment : segment ∉ segments) (value : Json) :
    (s.setData p value).verdict ≠ .error (.path (.invalidArrayIndex "" segment)) := by
  obtain ⟨dirty, hdirty⟩ := Dirty.exists_paths_iff.2 ⟨segments, hp⟩
  rw [setData_of_parse hp hdirty]
  split
  · intro h
    cases h
  · generalize hwritten : Json.setSegments p value segments (s.data.getD .null) = written
    have hsame := Json.sameWrite_setSegments p p value (s.data.getD .null) segments
    rw [hwritten] at hsame
    cases hsame with
    | fails hmem =>
      intro h
      cases h
      exact hsegment hmem
    | writes document =>
      obtain ⟨cache, -, hcommit⟩ := commit_default hs.config hs.cache (some document) dirty
      intro h
      dsimp only at h
      rw [hcommit] at h
      cases h

end Pair

variable {s : Store} {edit : Edit} {other : String} {segments : List String}

/-- Behind the lone slash the element is looked for below a member with an empty name. -/
theorem verdict_of_misled [Patterns] (h : edit.Misled s.data) :
    (s.edit edit).verdict = .error (.path (.invalidArrayIndex "" "")) := by
  obtain ⟨index, item, items, rfl, hdata, hlt⟩ := h
  have hroot : Pointer.parse "/" = .ok [] := rfl
  have hpath : Pointer.parse (Pointer.appendIndex "/" index) = .ok ["", toString index] := by
    have hbuild : Pointer.appendIndex "/" index = Pointer.build ["", toString index] :=
      Pointer.append_build [""] (toString index)
    rw [hbuild, Pointer.parse_build (by simp)]
  have hindex : Pointer.index? "" = none := rfl
  have hrange : ((some (Json.arr items)).bind Json.items?).any
      (fun items => decide (index < items.length)) = true := decide_eq_true hlt
  show (s.replaceItem "/" index item).verdict = _
  unfold replaceItem
  rw [arrayAt_of_parse hroot, hdata, Json.atSegments?_nil]
  dsimp only
  rw [if_pos hrange, setData, hdata, Json.getAt_of_parse hpath, Json.setAt_of_parse hpath,
    Json.atSegments?_cons, Option.bind_some, Json.child?, hindex, Option.bind_none,
    Json.atSegments?_none, Option.getD_some, Json.setSegments, hindex]
  rfl

/-- The two spellings of the root are told apart by an element that is replaced. -/
theorem verdict_ne_of_misled [Patterns] (hs : Plain s) (hp : Pointer.parse edit.path = .ok segments)
    (hq : Pointer.parse other = .ok segments) (hne : edit.path ≠ other)
    (h : edit.Misled s.data) :
    (s.edit edit).verdict ≠ (s.edit (edit.respelled other)).verdict := by
  rw [verdict_of_misled h]
  obtain ⟨index, item, items, rfl, -, -⟩ := h
  have hroot : Pointer.parse "/" = .ok segments := hp
  cases hroot
  obtain rfl : other = "" := (Pointer.parse_eq_nil_iff.1 hq).resolve_right (Ne.symm hne)
  show _ ≠ (s.replaceItem "" index item).verdict
  unfold replaceItem
  rw [arrayAt_of_parse hq]
  dsimp only
  split
  · have hpath : Pointer.parse (Pointer.appendIndex "" index) = .ok ([] ++ [toString index]) :=
      Pointer.parse_append hq (by decide) (Pointer.toString_index_ne_empty index)
    have hsegment : "" ∉ [] ++ [toString index] := fun hmem =>
      Pointer.toString_index_ne_empty index (List.mem_singleton.1 hmem).symm
    exact (verdict_setData_ne hs hpath hsegment item).symm
  · intro h
    cases h

/-! ### Edits and their spellings -/

/-- An edit at another spelling does the same, unless an element of the root array is replaced
behind the lone slash, or a choice counts under one of the texts only. -/
theorem alike_edit [Patterns] (hs : Plain s) (hp : Pointer.parse edit.path = .ok segments)
    (hq : Pointer.parse other = .ok segments) (hmisled : ¬ edit.Misled s.data)
    (hmisled' : ¬ (edit.respelled other).Misled s.data) (hchoice : s.ChoosesAlike edit other) :
    s.Alike edit.target (edit.respelled other).target (s.edit edit)
      (s.edit (edit.respelled other)) := by
  cases edit with
  | setData path value => exact alike_setData hs hp hq value
  | setCombinatorIndex path index => exact alike_setCombinatorIndex hs hp hq hchoice
  | appendItem path item => exact alike_appendItem hs hp hq item
  | insertItem path index item => exact alike_editItems hs hp hq _
  | removeItem path index => exact alike_editItems hs hp hq _
  | replaceItem path index item => exact alike_replaceItem hs hp hq hmisled hmisled'
  | moveItem path source target => exact alike_editItems hs hp hq _
  | swapItems path i j => exact alike_editItems hs hp hq _
  | clearItems path => exact alike_editItems hs hp hq _

/-- The verdict of an edit does not depend on the choices that count. -/
theorem verdict_respelled [Patterns] (hs : Plain s) (hp : Pointer.parse edit.path = .ok segments)
    (hq : Pointer.parse other = .ok segments) (hmisled : ¬ edit.Misled s.data)
    (hmisled' : ¬ (edit.respelled other).Misled s.data) :
    (s.edit edit).verdict = (s.edit (edit.respelled other)).verdict := by
  by_cases hchoice : s.ChoosesAlike edit other
  · exact (alike_edit hs hp hq hmisled hmisled' hchoice).verdict
  · cases edit with
    | setCombinatorIndex path index =>
      exact (verdict_setCombinatorIndex hs hp index).trans
        (verdict_setCombinatorIndex hs hq index).symm
    | _ => exact absurd (fun path index heq => nomatch heq) hchoice

/-- Two spellings of one pointer get the same verdict, unless they differ and an element of the root
array is replaced behind the lone slash. With the same verdict, and where choices count alike, they
make the same model, and tell the same unless somebody is told at the very text of one of them. -/
theorem respelled_edit_alike_iff [Patterns] (hs : Reachable .default s)
    (hp : Pointer.parse edit.path = .ok segments) (hq : Pointer.parse other = .ok segments) :
    ((s.edit edit).verdict = (s.edit (edit.respelled other)).verdict ↔
      edit.path = other ∨ ¬ edit.Misled s.data ∧ ¬ (edit.respelled other).Misled s.data) ∧
    ((s.edit edit).verdict = (s.edit (edit.respelled other)).verdict → s.ChoosesAlike edit other →
      s.Alike edit.target (edit.respelled other).target (s.edit edit)
        (s.edit (edit.respelled other))) := by
  have hverdict : (s.edit edit).verdict = (s.edit (edit.respelled other)).verdict ↔
      edit.path = other ∨ ¬ edit.Misled s.data ∧ ¬ (edit.respelled other).Misled s.data := by
    constructor
    · intro heq
      by_cases hne : edit.path = other
      · exact Or.inl hne
      · refine Or.inr ⟨fun hmisled => ?_, fun hmisled => ?_⟩
        · exact verdict_ne_of_misled hs.plain hp hq hne hmisled heq
        · have hne' : (s.edit (edit.respelled other)).verdict ≠
              (s.edit ((edit.respelled other).respelled edit.path)).verdict :=
            verdict_ne_of_misled hs.plain (by simpa using hq) hp (by simpa using Ne.symm hne)
              hmisled
          simp only [Edit.respelled_respelled, Edit.respelled_path] at hne'
          exact hne' heq.symm
    · rintro (rfl | ⟨hmisled, hmisled'⟩)
      · rw [Edit.respelled_path]
      · exact verdict_respelled hs.plain hp hq hmisled hmisled'
  refine ⟨hverdict, fun heq hchoice => ?_⟩
  rcases hverdict.1 heq with rfl | ⟨hmisled, hmisled'⟩
  · rw [Edit.respelled_path]
    exact Alike.refl _ _
  · exact alike_edit hs.plain hp hq hmisled hmisled' hchoice

theorem respelled_edit_alike_append :
    ∃ s, Reachable .default s ∧ Pointer.parse "" = .ok [] ∧ Pointer.parse "/" = .ok [] ∧
      (s.edit (.appendItem "" (Json.int 2))).verdict =
        (s.edit (.appendItem "/" (Json.int 2))).verdict ∧
      s.Alike "" "/" (s.edit (.appendItem "" (Json.int 2)))
        (s.edit (.appendItem "/" (Json.int 2))) := by
  obtain ⟨cache, -, hs⟩ := exists_reachable_watching
  have hp : Pointer.parse (Edit.appendItem "" (Json.int 2)).path = .ok [] := rfl
  have hq : Pointer.parse "/" = .ok [] := rfl
  have hdirect : ∀ path, ¬ (Edit.appendItem path (Json.int 2)).Misled (watching cache).data := by
    rintro path ⟨index, item, items, ⟨⟩, -⟩
  have hchoice : (watching cache).ChoosesAlike (.appendItem "" (Json.int 2)) "/" := by
    rintro path index ⟨⟩
  obtain ⟨hverdict, halike⟩ := respelled_edit_alike_iff hs hp hq
  have hsame := hverdict.2 (Or.inr ⟨hdirect "", hdirect "/"⟩)
  exact ⟨watching cache, hs, rfl, rfl, hsame, halike hsame hchoice⟩

/-- The first element of the root array is replaced at one spelling of the root and refused at the
other one. -/
theorem replacement_refused_behind_slash :
    ∃ s, Reachable .default s ∧ Pointer.parse "" = .ok [] ∧ Pointer.parse "/" = .ok [] ∧
      (s.edit (.replaceItem "" 0 (Json.int 2))).verdict = .ok () ∧
      (s.edit (.replaceItem "/" 0 (Json.int 2))).verdict =
        .error (.path (.invalidArrayIndex "" "")) := by
  obtain ⟨cache, hcache, hs⟩ := exists_reachable_watching
  have hdata : (watching cache).data = some (.arr [Json.int 1]) :=
    congrArg FormModel.data (watching_model cache)
  refine ⟨watching cache, hs, rfl, rfl, ?_, ?_⟩
  · have hfound : Json.getAt (some (.arr [Json.int 1])) "/0" = .ok (some (Json.int 1)) := rfl
    have hset : Json.setAt (some (.arr [Json.int 1])) "/0" (Json.int 2) =
        .ok (.arr [Json.int 2]) := rfl
    obtain ⟨after, -, -, hwritten, -⟩ := setData_watching hcache hfound (by decide) hset rfl
    have hreplaced : (watching cache).edit (.replaceItem "" 0 (Json.int 2)) =
        (watching cache).setData "/0" (Json.int 2) := by
      show (watching cache).replaceItem "" 0 (Json.int 2) = _
      rw [replaceItem, arrayAt, hdata]
      rfl
    rw [hreplaced, hwritten]
    rfl
  · exact verdict_of_misled ⟨0, Json.int 2, [Json.int 1], rfl, hdata, Nat.one_pos⟩

end Store
end SchemaForm
