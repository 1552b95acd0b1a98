import SchemaForm.Json.Size
import SchemaForm.Proofs.Entries
import SchemaForm.Schema.Reference

/-!
# Going through the schemas of a schema

Rebuilding from the leaves and inlining references go through the keywords on their own, by
recursion. Both come to the same: something is done with each schema directly below, and then with
the schema at hand. `below` lists the schemas directly below with their places, and `Reached` goes
down from one to the next; what is reached is what a traversal visits.
-/

namespace SchemaForm.Schema

/-! ### The schemas directly below -/

/-- The schemas that a value holds, each behind what it adds to the place of the value. -/
def held : Option Holder → Json → List (String × Json)
  | some .byName, .obj entries => entries.map fun entry => ("/" ++ entry.1, entry.2)
  | some .single, .obj entries => [("", .obj entries)]
  | some .list, .arr items => items.zipIdx.map fun item => ("/" ++ toString item.2, item.1)
  | _, _ => []

/-- The schemas directly below a schema with these keywords, each behind what it adds to the place
of the schema. -/
def below (keywords : Fields) : List (String × Json) :=
  keywords.flatMap fun entry =>
    (held (holder? entry.1) entry.2).map fun inner => ("/" ++ entry.1 ++ inner.1, inner.2)

theorem mem_below_iff {keywords : Fields} {e : String × Json} :
    e ∈ below keywords ↔ ∃ entry ∈ keywords, ∃ inner ∈ held (holder? entry.1) entry.2,
      ("/" ++ entry.1 ++ inner.1, inner.2) = e := by
  simp only [below, List.mem_flatMap, List.mem_map]

theorem mem_below_of_held {keywords : Fields} {entry inner : String × Json}
    (hentry : entry ∈ keywords) (hinner : inner ∈ held (holder? entry.1) entry.2) :
    ("/" ++ entry.1 ++ inner.1, inner.2) ∈ below keywords :=
  mem_below_iff.2 ⟨entry, hentry, inner, hinner, rfl⟩

/-- What goes down from an object to its members and from an array to its elements goes down to the
schemas directly below. -/
theorem of_mem_below {P : Json → Prop}
    (hobj : ∀ entries : Fields, P (.obj entries) → ∀ entry ∈ entries, P entry.2)
    (harr : ∀ items, P (.arr items) → ∀ v ∈ items, P v) {keywords : Fields}
    (h : ∀ entry ∈ keywords, P entry.2) {e : String × Json} (he : e ∈ below keywords) : P e.2 := by
  obtain ⟨⟨keyword, v⟩, hentry, inner, hinner, rfl⟩ := mem_below_iff.1 he
  have hv : P v := h _ hentry
  dsimp only at hinner ⊢
  unfold held at hinner
  split at hinner
  · obtain ⟨entry, hmem, rfl⟩ := List.mem_map.1 hinner
    exact hobj _ hv entry hmem
  · rw [List.mem_singleton.1 hinner]
    exact hv
  · obtain ⟨item, hmem, rfl⟩ := List.mem_map.1 hinner
    exact harr _ hv item.1 (List.fst_mem_of_mem_zipIdx hmem)
  · cases hinner

theorem size_lt_of_mem_below {keywords : Fields} {e : String × Json} (he : e ∈ below keywords) :
    e.2.size < (Json.obj keywords).size := by
  have hle : e.2.size ≤ Json.sizeEntries keywords := by
    refine of_mem_below (P := fun v => v.size ≤ Json.sizeEntries keywords) ?_ ?_ ?_ he
    · intro entries h entry hentry
      have := Json.size_le_sizeEntries hentry
      simp only [Json.size] at h
      omega
    · intro items h v hv
      have := Json.size_le_sizeItems hv
      simp only [Json.size] at h
      omega
    · exact fun entry hentry => Json.size_le_sizeEntries hentry
  simp only [Json.size]
  omega

/-- Induction on a schema by way of the schemas directly below. -/
@[elab_as_elim]
theorem induct_below {motive : Json → Prop} (leaf : ∀ v : Json, v.isObj = false → motive v)
    (object : ∀ keywords : Fields, (∀ e ∈ below keywords, motive e.2) → motive (.obj keywords))
    (v : Json) : motive v := by
  cases v with
  | obj keywords =>
    refine object keywords fun e he => ?_
    have := size_lt_of_mem_below he
    exact induct_below leaf object e.2
  | _ => exact leaf _ rfl
termination_by v.size

/-! ### Replacing the schemas directly below -/

variable {f g : Json → Json} {keywords : Fields}

theorem mapHeld_scalar {v : Json} (hobj : v.isObj = false)
    (harr : v.isArr = false) (holder : Option Holder) : mapHeld f holder v = v := by
  cases v with
  | arr items => cases harr
  | obj entries => cases hobj
  | _ => rcases holder with _ | (_ | _ | _) <;> rfl

theorem mapHeld_id (holder : Option Holder) (v : Json) : mapHeld id holder v = v := by
  unfold mapHeld
  split <;> simp

theorem mapSchemas_id (keywords : Fields) : mapSchemas id keywords = keywords := by
  simp [mapSchemas, mapHeld_id]

theorem mapHeld_congr {holder : Option Holder} {v : Json}
    (h : ∀ inner ∈ held holder v, f inner.2 = g inner.2) :
    mapHeld f holder v = mapHeld g holder v := by
  unfold mapHeld
  split
  · next entries =>
    refine congrArg Json.obj (List.map_congr_left fun member hmember => ?_)
    rw [h _ (List.mem_map.2 ⟨member, hmember, rfl⟩)]
  · next entries => exact h ("", .obj entries) (List.mem_singleton_self _)
  · next items =>
    refine congrArg Json.arr (List.map_congr_left fun item hitem => ?_)
    obtain ⟨index, hindex, rfl⟩ := List.getElem_of_mem hitem
    have hmem : (items[index], index) ∈ items.zipIdx :=
      List.mk_mem_zipIdx_iff_getElem?.2 (List.getElem?_eq_getElem hindex)
    exact h _ (List.mem_map.2 ⟨_, hmem, rfl⟩)
  · rfl

/-- Only what is done with the schemas directly below makes a difference. -/
theorem mapSchemas_congr (h : ∀ e ∈ below keywords, f e.2 = g e.2) :
    mapSchemas f keywords = mapSchemas g keywords := by
  refine List.map_congr_left fun entry hentry => ?_
  have hheld : mapHeld f (holder? entry.1) entry.2 = mapHeld g (holder? entry.1) entry.2 :=
    mapHeld_congr fun inner hinner =>
      h ("/" ++ entry.1 ++ inner.1, inner.2) (mem_below_of_held hentry hinner)
  rw [hheld]

theorem mapSchemas_eq_self (h : ∀ e ∈ below keywords, f e.2 = e.2) :
    mapSchemas f keywords = keywords :=
  (mapSchemas_congr h).trans (mapSchemas_id keywords)

theorem mapHeld_mapHeld (hf : ∀ entries, (f (.obj entries)).isObj = true)
    (holder : Option Holder) (v : Json) :
    mapHeld g holder (mapHeld f holder v) = mapHeld (g ∘ f) holder v := by
  cases v with
  | obj entries =>
    rcases holder with _ | (_ | _ | _)
    · rfl
    · simp [mapHeld]
    · have hobj := hf entries
      cases hv : f (.obj entries) with
      | obj replaced => simp [mapHeld, hv]
      | _ =>
        rw [hv] at hobj
        cases hobj
    · rfl
  | arr items => rcases holder with _ | (_ | _ | _) <;> simp [mapHeld]
  | _ => rcases holder with _ | (_ | _ | _) <;> rfl

/-- Two replacements one after the other, the first of which makes objects out of objects. -/
theorem mapSchemas_mapSchemas (hf : ∀ entries, (f (.obj entries)).isObj = true) :
    mapSchemas g (mapSchemas f keywords) = mapSchemas (g ∘ f) keywords := by
  simp [mapSchemas, mapHeld_mapHeld hf]

theorem get?_mapSchemas (f : Json → Json) (key : String) (keywords : Fields) :
    Entries.get? key (mapSchemas f keywords) =
      (Entries.get? key keywords).map (mapHeld f (holder? key)) :=
  Entries.get?_map (fun key => mapHeld f (holder? key)) key keywords

theorem get?_mapSchemas_of_not_holder (f : Json → Json) {key : String}
    (hholder : holder? key = none) (keywords : Fields) :
    Entries.get? key (mapSchemas f keywords) = Entries.get? key keywords := by
  have hid : mapHeld f none = id := funext fun v => by cases v <;> rfl
  rw [get?_mapSchemas, hholder, hid, Option.map_id, id]

/-- A schema below replaced schemas replaces one. -/
theorem exists_of_mem_below_mapSchemas {e : String × Json}
    (he : e ∈ below (mapSchemas f keywords)) :
    ∃ original ∈ below keywords, (original.1, f original.2) = e := by
  obtain ⟨_, hmapped, inner, hinner, rfl⟩ := mem_below_iff.1 he
  obtain ⟨entry, hentry, rfl⟩ := List.mem_map.1 hmapped
  suffices h : ∃ original ∈ held (holder? entry.1) entry.2, (original.1, f original.2) = inner by
    obtain ⟨original, horiginal, rfl⟩ := h
    exact ⟨_, mem_below_of_held hentry horiginal, rfl⟩
  dsimp only at hinner
  generalize holder? entry.1 = holder at hinner ⊢
  generalize entry.2 = v at hinner ⊢
  unfold mapHeld at hinner
  split at hinner
  · simp only [held, List.map_map] at hinner ⊢
    obtain ⟨member, hmember, rfl⟩ := List.mem_map.1 hinner
    exact ⟨_, List.mem_map.2 ⟨member, hmember, rfl⟩, rfl⟩
  · next entries =>
    -- The replacement is below if it is an object again.
    refine ⟨("", .obj entries), List.mem_singleton_self _, ?_⟩
    cases hv : f (.obj entries) with
    | obj replaced =>
      rw [hv] at hinner
      exact (List.mem_singleton.1 hinner).symm
    | _ =>
      rw [hv] at hinner
      cases hinner
  · simp only [held, List.zipIdx_map, List.map_map] at hinner ⊢
    obtain ⟨item, hitem, rfl⟩ := List.mem_map.1 hinner
    exact ⟨_, List.mem_map.2 ⟨item, hitem, rfl⟩, rfl⟩
  · next hname hsingle hlist =>
    unfold held at hinner
    split at hinner
    · exact (hname _ rfl rfl).elim
    · exact (hsingle _ rfl rfl).elim
    · exact (hlist _ rfl rfl).elim
    · cases hinner

/-- What changes no object whose schemas below it does not change changes nothing. -/
theorem eq_self_of_mapSchemas (hleaf : ∀ v, v.isObj = false → f v = v)
    (hobj : ∀ keywords, mapSchemas f keywords = keywords → f (.obj keywords) = .obj keywords)
    (v : Json) : f v = v := by
  induction v using induct_below with
  | leaf v hv => exact hleaf v hv
  | object keywords ih => exact hobj keywords (mapSchemas_eq_self ih)

/-! ### Rebuilding from the leaves -/

theorem bottomUp_of_not_obj {v : Json} (h : v.isObj = false) (f : Fields → Json) :
    bottomUp f v = v := by
  cases v with
  | obj keywords => cases h
  | _ => simp [bottomUp]

theorem bottomUpNamed_eq_map (f : Fields → Json) (named : List (String × Json)) :
    bottomUpNamed f named = named.map fun entry => (entry.1, bottomUp f entry.2) := by
  induction named with
  | nil => rfl
  | cons entry rest ih => rw [bottomUpNamed, ih, List.map_cons]

theorem bottomUpItems_eq_map (f : Fields → Json) (items : List Json) :
    bottomUpItems f items = items.map (bottomUp f) := by
  induction items with
  | nil => rfl
  | cons v rest ih => rw [bottomUpItems, ih, List.map_cons]

theorem bottomUpKeywords_eq_mapSchemas (f : Fields → Json) (keywords : List (String × Json)) :
    bottomUpKeywords f keywords = mapSchemas (bottomUp f) keywords := by
  induction keywords with
  | nil => rfl
  | cons entry rest ih =>
    obtain ⟨keyword, v⟩ := entry
    rw [mapSchemas, List.map_cons, ← mapSchemas, ← ih]
    cases v with
    | obj entries =>
      rw [bottomUpKeywords, bottomUpNamed_eq_map]
      rcases holder? keyword with _ | (_ | _ | _) <;> simp [mapHeld, bottomUp]
    | arr items =>
      rw [bottomUpKeywords, bottomUpItems_eq_map]
      rcases holder? keyword with _ | (_ | _ | _) <;> simp [mapHeld]
    | _ => rcases holder? keyword with _ | (_ | _ | _) <;> simp [mapHeld, bottomUpKeywords]

/-! ### Inlining -/

theorem inlineWith_of_not_obj {v : Json} (h : v.isObj = false)
    (target? : String → Option Json) : inlineWith target? v = v := by
  cases v with
  | obj keywords => cases h
  | _ => simp [inlineWith]

theorem inlineNamed_eq_map (target? : String → Option Json) (named : List (String × Json)) :
    inlineNamed target? named = named.map fun entry => (entry.1, inlineWith target? entry.2) := by
  induction named with
  | nil => rfl
  | cons entry rest ih => rw [inlineNamed, ih, List.map_cons]

theorem inlineItems_eq_map (target? : String → Option Json) (items : List Json) :
    inlineItems target? items = items.map (inlineWith target?) := by
  induction items with
  | nil => rfl
  | cons v rest ih => rw [inlineItems, ih, List.map_cons]

theorem inlineKeywords_eq_mapSchemas (target? : String → Option Json)
    (keywords : List (String × Json)) :
    inlineKeywords target? keywords = mapSchemas (inlineWith target?) keywords := by
  induction keywords with
  | nil => rfl
  | cons entry rest ih =>
    obtain ⟨keyword, v⟩ := entry
    rw [mapSchemas, List.map_cons, ← mapSchemas, ← ih]
    cases v with
    | obj entries =>
      rw [inlineKeywords, inlineNamed_eq_map]
      rcases holder? keyword with _ | (_ | _ | _) <;> simp [mapHeld, inlineWith]
    | arr items =>
      rw [inlineKeywords, inlineItems_eq_map]
      rcases holder? keyword with _ | (_ | _ | _) <;> simp [mapHeld]
    | _ => rcases holder? keyword with _ | (_ | _ | _) <;> simp [mapHeld, inlineKeywords]

/-! ### Visiting -/

/-- A schema object is reached from a schema, by way of the schema objects passed before it, at a
place in the schema. -/
inductive Reached : Json → List Fields → String → Fields → Prop where
  | here (keywords : Fields) : Reached (.obj keywords) [] "" keywords
  | step {outer inner : Fields} {e : String × Json} {passed : List Fields} {place : String}
      (he : e ∈ below outer) (h : Reached e.2 passed place inner) :
      Reached (.obj outer) (outer :: passed) (e.1 ++ place) inner

theorem visits_of_not_obj {v : Json} (h : v.isObj = false) (place : String) :
    visits place v = [] := by
  cases v with
  | obj keywords => cases h
  | _ => rfl

theorem visitsNamed_eq_flatMap (place : String) (named : List (String × Json)) :
    visitsNamed place named =
      named.flatMap fun entry => visits (place ++ "/" ++ entry.1) entry.2 := by
  induction named with
  | nil => rfl
  | cons entry rest ih => rw [visitsNamed, ih, List.flatMap_cons]

theorem visitsItems_eq_flatMap (place : String) (index : Nat) (items : List Json) :
    visitsItems place index items =
      (items.zipIdx index).flatMap fun item => visits (place ++ "/" ++ toString item.2) item.1 := by
  induction items generalizing index with
  | nil => rfl
  | cons v rest ih => rw [visitsItems, ih, List.zipIdx_cons, List.flatMap_cons]

theorem visitsKeywords_eq_flatMap (place : String) (keywords : List (String × Json)) :
    visitsKeywords place keywords =
      (below keywords).flatMap fun e => visits (place ++ e.1) e.2 := by
  induction keywords with
  | nil => rfl
  | cons entry rest ih =>
    obtain ⟨keyword, v⟩ := entry
    rw [below, List.flatMap_cons, ← below, List.flatMap_append, ← ih]
    cases v with
    | obj entries =>
      rw [visitsKeywords, visitsNamed_eq_flatMap]
      rcases holder? keyword with _ | (_ | _ | _) <;>
        simp [held, visits, List.flatMap_map, String.append_assoc]
    | arr items =>
      rw [visitsKeywords, visitsItems_eq_flatMap]
      rcases holder? keyword with _ | (_ | _ | _) <;>
        simp [held, List.flatMap_map, String.append_assoc]
    | _ => rcases holder? keyword with _ | (_ | _ | _) <;> simp [held, visitsKeywords]

/-- A schema object is visited at its place, and then what is below it. -/
theorem visits_obj (place : String) (keywords : Fields) :
    visits place (.obj keywords) =
      (place, .obj keywords) :: (below keywords).flatMap fun e => visits (place ++ e.1) e.2 := by
  rw [visits, visitsKeywords_eq_flatMap]

theorem mem_visits_iff {schema : Json} {start : String} {visit : String × Json} :
    visit ∈ visits start schema ↔ ∃ passed place keywords,
      Reached schema passed place keywords ∧ (start ++ place, .obj keywords) = visit := by
  induction schema using induct_below generalizing start with
  | leaf v hv =>
    rw [visits_of_not_obj hv]
    constructor
    · rintro ⟨⟩
    · rintro ⟨passed, place, keywords, h, -⟩
      cases h <;> cases hv
  | object outer ih =>
    rw [visits_obj, List.mem_cons, List.mem_flatMap]
    constructor
    · rintro (rfl | ⟨e, he, hvisit⟩)
      · exact ⟨[], "", outer, .here outer, by rw [String.append_empty]⟩
      · obtain ⟨passed, place, keywords, h, rfl⟩ := (ih e he).1 hvisit
        exact ⟨outer :: passed, e.1 ++ place, keywords, .step he h, by rw [String.append_assoc]⟩
    · rintro ⟨passed, place, keywords, h, rfl⟩
      cases h with
      | here => exact .inl (by rw [String.append_empty])
      | @step _ inner e passed place he h =>
        refine .inr ⟨e, he, (ih e he).2 ⟨passed, place, keywords, h, ?_⟩⟩
        rw [String.append_assoc]

/-- The visits are the schema objects that are reached. -/
theorem mem_traverse_iff {schema : Json} {visit : String × Json} :
    visit ∈ traverse schema ↔ ∃ passed place keywords,
      Reached schema passed place keywords ∧ ("#" ++ place, .obj keywords) = visit :=
  mem_visits_iff

end SchemaForm.Schema
