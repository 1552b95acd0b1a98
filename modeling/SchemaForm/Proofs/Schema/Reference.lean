import Mathlib.Logic.Relation
import SchemaForm.Proofs.Schema.Location

/-!
# Expanding references

Expansion follows a reference into its definition and goes on from there, and keeps a reference that
is being expanded already. `Expands` states this without a bound; its derivations are finite, and
there is one for every schema. Where no definition leads back to itself, the only references met in
the end are those without a definition, so there is nothing left to expand.
-/

namespace SchemaForm.Schema

open Json

variable {keywords definitions : Fields} {reference : String} {resolving : List String}
  {v w : Json}

/-! ### The references of a schema -/

theorem mem_referencesItems_iff {reference : String} {items : List Json} :
    reference ∈ referencesItems items ↔ ∃ item ∈ items, reference ∈ references item := by
  induction items with
  | nil => simp [referencesItems]
  | cons item rest ih => simp [referencesItems, ih]

/-- The member is a reference with this text, or holds one. -/
def Refers (reference key : String) (v : Json) : Prop :=
  (key = "$ref" ∧ v = .str reference) ∨ reference ∈ references v

theorem mem_referencesEntries_iff {reference : String} {entries : List (String × Json)} :
    reference ∈ referencesEntries entries ↔
      ∃ entry ∈ entries, Refers reference entry.1 entry.2 := by
  induction entries with
  | nil => simp [referencesEntries]
  | cons entry rest ih =>
    obtain ⟨key, v⟩ := entry
    simp only [List.mem_cons, exists_eq_or_imp, ← ih]
    cases v with
    | str text =>
      by_cases hkey : key = "$ref"
      · simp [referencesEntries, references, Refers, hkey, eq_comm]
      · simp [referencesEntries, references, Refers, hkey]
    | _ => simp [referencesEntries, Refers]

theorem reference_mem_references (h : reference? keywords = some reference) :
    reference ∈ references (.obj keywords) := by
  obtain ⟨v, hv, htext⟩ := Option.bind_eq_some_iff.1 h
  cases v with
  | str text =>
    cases htext
    exact mem_referencesEntries_iff.2 ⟨_, Entries.mem_of_get? hv, .inl ⟨rfl, rfl⟩⟩
  | _ => cases htext

theorem references_subset_of_mem {entry : String × Json} (h : entry ∈ keywords) :
    references entry.2 ⊆ references (.obj keywords) := by
  intro reference hreference
  exact mem_referencesEntries_iff.2 ⟨entry, h, .inr hreference⟩

theorem references_subset_of_mem_below {e : String × Json} (he : e ∈ below keywords) :
    references e.2 ⊆ references (.obj keywords) := by
  refine of_mem_below (P := fun v => references v ⊆ references (.obj keywords)) ?_ ?_ ?_ he
  · intro entries h entry hentry
    exact List.Subset.trans (references_subset_of_mem hentry) h
  · intro items h v hv reference hreference
    exact h (mem_referencesItems_iff.2 ⟨v, hv, hreference⟩)
  · exact fun entry hentry => references_subset_of_mem hentry

theorem references_subset_of_getFields? {schema : Json} {key : String} {fields : Fields}
    (h : schema.getFields? key = some fields) : references (.obj fields) ⊆ references schema := by
  obtain ⟨v, hv, hfields⟩ := Option.bind_eq_some_iff.1 h
  cases v with
  | obj entries =>
    cases hfields
    cases schema with
    | obj keywords => exact references_subset_of_mem (Entries.mem_of_get? hv)
    | _ => cases hv
  | _ => cases hfields

/-- A definition refers to nothing that the schema does not refer to. -/
theorem references_definition_subset {schema target : Json}
    (h : definition? (Schema.definitions schema) reference = some target) :
    references target ⊆ references schema := by
  obtain ⟨name, -, hname⟩ := Option.bind_eq_some_iff.1 h
  have hmem := Entries.mem_of_get? hname
  refine List.Subset.trans (references_subset_of_mem hmem) ?_
  unfold Schema.definitions
  cases hdefs : schema.getFields? "$defs" with
  | some fields => exact references_subset_of_getFields? hdefs
  | none =>
    cases holder : schema.getFields? "definitions" with
    | some fields => exact references_subset_of_getFields? holder
    | none => exact List.nil_subset _

/-! ### Expansion without a bound -/

/-- Expanding a schema while some references are being expanded gives a result: a reference is
followed to its definition, unless it is being expanded or has none. -/
inductive Expands (definitions : Fields) : List String → Json → Json → Prop where
  | leaf {resolving : List String} {v : Json} (h : v.isObj = false) :
      Expands definitions resolving v v
  | inside {resolving : List String} {keywords : Fields} {f : Json → Json}
      (h : reference? keywords = none)
      (hbelow : ∀ e ∈ below keywords, Expands definitions resolving e.2 (f e.2)) :
      Expands definitions resolving (.obj keywords) (.obj (mapSchemas f keywords))
  | circular {resolving : List String} {keywords : Fields} {reference : String}
      (h : reference? keywords = some reference) (hmem : reference ∈ resolving) :
      Expands definitions resolving (.obj keywords) (.obj keywords)
  | missing {resolving : List String} {keywords : Fields} {reference : String}
      (h : reference? keywords = some reference) (hnew : reference ∉ resolving)
      (hnone : definition? definitions reference = none) :
      Expands definitions resolving (.obj keywords) (.obj keywords)
  | target {resolving : List String} {keywords : Fields} {reference : String}
      {target result : Json} (h : reference? keywords = some reference)
      (hnew : reference ∉ resolving) (htarget : definition? definitions reference = some target)
      (hresult : Expands definitions (reference :: resolving) target result) :
      Expands definitions resolving (.obj keywords) result

/-- There is at most one result. -/
theorem Expands.unique {w' : Json} (h : Expands definitions resolving v w)
    (h' : Expands definitions resolving v w') : w = w' := by
  induction h generalizing w' with
  | leaf hv => cases h' <;> simp_all [isObj]
  | circular hsome hmem => cases h' <;> simp_all [isObj]
  | missing hsome hnew hnone => cases h' <;> simp_all [isObj]
  | inside hnone _ ih =>
    cases h' with
    | inside _ hbelow =>
      exact congrArg Json.obj (mapSchemas_congr fun e he => ih e he (hbelow e he))
    | _ => simp_all [isObj]
  | target hsome hnew htarget _ ih =>
    cases h' with
    | target hsome' _ htarget' hresult =>
      rw [hsome] at hsome'
      cases hsome'
      rw [htarget] at htarget'
      cases htarget'
      exact ih hresult
    | _ => simp_all [isObj]

theorem expand_of_not_obj (h : v.isObj = false) (definitions : Fields) (available : List String) :
    expand definitions available v = v := by
  rw [expand, inlineWith_of_not_obj h]

/-- What the bounded expansion does at a schema. -/
theorem expand_obj (definitions : Fields) (available : List String) (keywords : Fields) :
    expand definitions available (.obj keywords) =
      match reference? keywords with
      | none => .obj (mapSchemas (expand definitions available) keywords)
      | some reference =>
        if reference ∈ available then
          ((definition? definitions reference).map
            (expand definitions (others reference available))).getD (.obj keywords)
        else .obj keywords := by
  rw [expand, inlineWith]
  cases reference? keywords with
  | none =>
    dsimp only
    rw [inlineKeywords_eq_mapSchemas]
    congr 2
    funext v
    rw [expand]
  | some reference =>
    dsimp only
    by_cases hmem : reference ∈ available
    · rw [dif_pos hmem, if_pos hmem]
    · rw [dif_neg hmem, if_neg hmem]
      rfl

/-- The bounded expansion gives the result, if the references still available are those that are not
being expanded, among all that can be met. -/
theorem expands_expand (all : List String) {available : List String}
    (hdefinitions : ∀ reference target, definition? definitions reference = some target →
      references target ⊆ all)
    (havailable : ∀ reference, reference ∈ available ↔ reference ∈ all ∧ reference ∉ resolving)
    (hv : references v ⊆ all) :
    Expands definitions resolving v (expand definitions available v) := by
  induction available, v using expand.induct generalizing resolving with
  | case1 available v ih =>
    induction v using induct_below with
    | leaf v hleaf =>
      rw [expand_of_not_obj hleaf]
      exact .leaf hleaf
    | object keywords ihbelow =>
      rw [expand_obj]
      cases hreference : reference? keywords with
      | none =>
        refine .inside hreference fun e he => ?_
        exact ihbelow e he (List.Subset.trans (references_subset_of_mem_below he) hv)
      | some reference =>
        have hall : reference ∈ all := hv (reference_mem_references hreference)
        dsimp only
        by_cases hmem : reference ∈ resolving
        · rw [if_neg fun h => ((havailable reference).1 h).2 hmem]
          exact .circular hreference hmem
        · have hstill := (havailable reference).2 ⟨hall, hmem⟩
          rw [if_pos hstill]
          cases htarget : definition? definitions reference with
          | none => exact .missing hreference hmem htarget
          | some target =>
            refine .target hreference hmem htarget ?_
            refine ih reference hstill target (fun other => ?_) (hdefinitions _ _ htarget)
            rw [others, List.mem_filter, havailable, List.mem_cons, decide_eq_true_eq, not_or]
            exact ⟨fun h => ⟨h.1.1, h.2, h.1.2⟩, fun h => ⟨⟨h.1, h.2.2⟩, h.2.1⟩⟩

/-- Every schema has one result, that of resolving its references. -/
theorem expands_iff {schema result : Json} :
    Expands (Schema.definitions schema) [] schema result ↔ result = resolveReferences schema := by
  have hexpands : Expands (Schema.definitions schema) [] schema (resolveReferences schema) := by
    apply expands_expand (references schema)
    · exact fun _ _ => references_definition_subset
    · exact fun reference => by simp
    · exact List.Subset.refl _
  constructor
  · exact fun h => h.unique hexpands
  · rintro rfl
    exact hexpands

/-! ### The references that are met -/

/-- A schema has the reference at a place that is reached without passing another one. -/
def Meets (schema : Json) (reference : String) : Prop :=
  ∃ passed place keywords, Reached schema passed place keywords ∧
    (∀ outer ∈ passed, reference? outer = none) ∧ reference? keywords = some reference

theorem not_meets_of_not_obj (h : v.isObj = false) : ¬ Meets v reference := by
  rintro ⟨passed, place, keywords, hreached, -⟩
  cases hreached <;> cases h

theorem meets_iff_of_some {other : String} (h : reference? keywords = some reference) :
    Meets (.obj keywords) other ↔ other = reference := by
  constructor
  · rintro ⟨passed, place, inner, hreached, hpassed, hother⟩
    cases hreached with
    | here => exact Option.some.inj (hother.symm.trans h)
    | step =>
      rw [hpassed keywords List.mem_cons_self] at h
      cases h
  · rintro rfl
    exact ⟨[], "", keywords, .here keywords, by simp, h⟩

theorem meets_iff_of_none (h : reference? keywords = none) :
    Meets (.obj keywords) reference ↔ ∃ e ∈ below keywords, Meets e.2 reference := by
  constructor
  · rintro ⟨passed, place, inner, hreached, hpassed, hreference⟩
    cases hreached with
    | here =>
      rw [h] at hreference
      cases hreference
    | @step _ _ e passed place he hreached =>
      exact ⟨e, he, passed, place, inner, hreached,
        fun outer houter => hpassed outer (List.mem_cons_of_mem _ houter), hreference⟩
  · rintro ⟨e, he, passed, place, inner, hreached, hpassed, hreference⟩
    refine ⟨keywords :: passed, e.1 ++ place, inner, .step he hreached, ?_, hreference⟩
    exact List.forall_mem_cons.2 ⟨h, hpassed⟩

/-- A reference that is reached is met, or lies below one that is. -/
theorem Reached.exists_meets {passed : List Fields} {place : String}
    (h : Reached v passed place keywords) (hreference : reference? keywords = some reference) :
    Meets v reference ∨
      ∃ above ∈ passed, ∃ other, reference? above = some other ∧ Meets v other := by
  induction h with
  | here => exact .inl ((meets_iff_of_some hreference).2 rfl)
  | @step outer inner e passed place he _ ih =>
    cases houter : reference? outer with
    | some other =>
      exact .inr ⟨outer, List.mem_cons_self, other, houter, (meets_iff_of_some houter).2 rfl⟩
    | none =>
      rcases ih hreference with hmeets | ⟨above, habove, other, hother, hmeets⟩
      · exact .inl ((meets_iff_of_none houter).2 ⟨e, he, hmeets⟩)
      · exact .inr ⟨above, List.mem_cons_of_mem _ habove, other, hother,
          (meets_iff_of_none houter).2 ⟨e, he, hmeets⟩⟩

/-- Where no reference that is met has a target, nothing is inlined. -/
theorem inlineWith_eq_self {target? : String → Option Json}
    (h : ∀ reference, Meets v reference → target? reference = none) : inlineWith target? v = v := by
  induction v using induct_below with
  | leaf v hv => exact inlineWith_of_not_obj hv target?
  | object keywords ih =>
    rw [inlineWith]
    cases hreference : reference? keywords with
    | none =>
      dsimp only
      rw [inlineKeywords_eq_mapSchemas, mapSchemas_eq_self]
      exact fun e he => ih e he fun reference hmeets =>
        h reference ((meets_iff_of_none hreference).2 ⟨e, he, hmeets⟩)
    | some reference =>
      dsimp only
      rw [h reference ((meets_iff_of_some hreference).2 rfl)]
      rfl

/-! ### Definitions that do not lead back to themselves -/

/-- The definition of a name meets a reference to the other name. What stands beside a reference
does not count, because it is not expanded. -/
def LeadsTo (definitions : Fields) (name other : String) : Prop :=
  ∃ target reference, Entries.get? name definitions = some target ∧ Meets target reference ∧
    definitionName? reference = some other

/-- No definition leads back to itself. -/
def Acyclic (definitions : Fields) : Prop :=
  ∀ name, ¬ Relation.TransGen (LeadsTo definitions) name name

theorem acyclic_of_rank (rank : String → Nat)
    (h : ∀ name other, LeadsTo definitions name other → rank other < rank name) :
    Acyclic definitions := by
  have hless : ∀ name other, Relation.TransGen (LeadsTo definitions) name other →
      rank other < rank name := by
    intro name other hleads
    induction hleads with
    | single hlast => exact h _ _ hlast
    | tail _ hlast ih => exact Nat.lt_trans (h _ _ hlast) ih
  exact fun name hleads => Nat.lt_irrefl _ (hless name name hleads)

/-- While some references are being expanded, each of them leads to what a schema meets. -/
def Led (definitions : Fields) (resolving : List String) (schema : Json) : Prop :=
  ∀ reference ∈ resolving, ∃ name, definitionName? reference = some name ∧
    ∀ met other, Meets schema met → definitionName? met = some other →
      Relation.TransGen (LeadsTo definitions) name other

theorem Led.below (h : Led definitions resolving (.obj keywords))
    (hnone : reference? keywords = none) {e : String × Json} (he : e ∈ Schema.below keywords) :
    Led definitions resolving e.2 := by
  intro reference hreference
  obtain ⟨name, hname, hleads⟩ := h reference hreference
  exact ⟨name, hname, fun met other hmeets =>
    hleads met other ((meets_iff_of_none hnone).2 ⟨e, he, hmeets⟩)⟩

theorem Led.target (h : Led definitions resolving (.obj keywords)) {target : Json}
    (hreference : reference? keywords = some reference)
    (htarget : definition? definitions reference = some target) :
    Led definitions (reference :: resolving) target := by
  obtain ⟨name, hname, hfound⟩ := Option.bind_eq_some_iff.1 htarget
  have hstep : ∀ met other, Meets target met → definitionName? met = some other →
      LeadsTo definitions name other :=
    fun met other hmeets hother => ⟨target, met, hfound, hmeets, hother⟩
  intro earlier hearlier
  rcases List.mem_cons.1 hearlier with rfl | hearlier
  · exact ⟨name, hname, fun met other hmeets hother => .single (hstep met other hmeets hother)⟩
  · obtain ⟨start, hstart, hleads⟩ := h earlier hearlier
    have hhere := hleads reference name ((meets_iff_of_some hreference).2 rfl) hname
    exact ⟨start, hstart, fun met other hmeets hother => hhere.tail (hstep met other hmeets hother)⟩

/-- Where no definition leads back to itself, a result meets references without a definition
only. -/
theorem Expands.unresolvable (h : Expands definitions resolving v w)
    (hacyclic : Acyclic definitions) (hled : Led definitions resolving v)
    (hmeets : Meets w reference) : definition? definitions reference = none := by
  induction h with
  | leaf hv => exact absurd hmeets (not_meets_of_not_obj hv)
  | @inside resolving keywords f hnone _ ih =>
    have hmapped : reference? (mapSchemas f keywords) = none := by
      rw [reference?, get?_mapSchemas_of_not_holder f rfl]
      exact hnone
    obtain ⟨e, he, hmeets⟩ := (meets_iff_of_none hmapped).1 hmeets
    obtain ⟨original, horiginal, rfl⟩ := exists_of_mem_below_mapSchemas he
    exact ih original horiginal (hled.below hnone horiginal) hmeets
  | circular hsome hmem =>
    -- The reference would lead to itself.
    obtain ⟨name, hname, hleads⟩ := hled _ hmem
    exact absurd (hleads _ name ((meets_iff_of_some hsome).2 rfl) hname) (hacyclic name)
  | missing hsome _ hnone =>
    rw [(meets_iff_of_some hsome).1 hmeets]
    exact hnone
  | target hsome _ htarget _ ih => exact ih (hled.target hsome htarget) hmeets

theorem unresolvable_of_meets {schema : Json} (hacyclic : Acyclic (Schema.definitions schema))
    (hmeets : Meets (resolveReferences schema) reference) :
    definition? (Schema.definitions schema) reference = none :=
  (expands_iff.2 rfl).unresolvable hacyclic (by simp [Led]) hmeets

/-! ### The definitions of a result -/

/-- Replacing schemas leaves the names of the definitions. -/
theorem definition?_mapSchemas_eq_none_iff (f : Json → Json) (keywords : Fields)
    (reference : String) :
    definition? (Schema.definitions (.obj (mapSchemas f keywords))) reference = none ↔
      definition? (Schema.definitions (.obj keywords)) reference = none := by
  have hdefs : (Json.obj (mapSchemas f keywords)).getFields? "$defs" =
      ((Json.obj keywords).getFields? "$defs").map fun entries =>
        entries.map fun e => (e.1, f e.2) := by
    have hholder : holder? "$defs" = some .byName := rfl
    rw [getFields?, getFields?, Json.get?, Json.get?, get?_mapSchemas, hholder]
    cases Entries.get? "$defs" keywords with
    | none => rfl
    | some v => cases v <;> rfl
  have hold : (Json.obj (mapSchemas f keywords)).getFields? "definitions" =
      (Json.obj keywords).getFields? "definitions" :=
    congrArg (Option.bind · fields?) (get?_mapSchemas_of_not_holder f rfl keywords)
  unfold definition? Schema.definitions
  rw [hdefs, hold]
  cases definitionName? reference with
  | none => rfl
  | some name =>
    cases (Json.obj keywords).getFields? "$defs" with
    | none => rfl
    | some entries =>
      show Entries.get? name (entries.map fun e => (e.1, f e.2)) = none ↔
        Entries.get? name entries = none
      rw [Entries.get?_map (fun _ => f), Option.map_eq_none_iff]

theorem resolveReferences_obj (h : reference? keywords = none) :
    ∃ f, resolveReferences (.obj keywords) = .obj (mapSchemas f keywords) := by
  use expand (Schema.definitions (.obj keywords)) (references (.obj keywords))
  rw [resolveReferences, expand_obj, h]

/-- Where only references without a definition are met, resolving changes nothing. -/
theorem resolveReferences_eq_self {schema : Json}
    (h : ∀ reference, Meets schema reference →
      definition? (Schema.definitions schema) reference = none) :
    resolveReferences schema = schema := by
  rw [resolveReferences, expand]
  refine inlineWith_eq_self fun reference hmeets => ?_
  split
  · rw [h reference hmeets]
    rfl
  · rfl

/-- Resolving references always ends, with one result. If no definition leads back to itself, a
reference that has a definition is left only below one that has none; so if the schema itself is no
reference either, resolving again changes nothing. What is reached in the result is what a traversal
visits. -/
theorem resolveReferences_complete (schema : Json) :
    (∀ result, Expands (Schema.definitions schema) [] schema result ↔
        result = resolveReferences schema) ∧
      (Acyclic (Schema.definitions schema) →
        (∀ passed place keywords reference,
          Reached (resolveReferences schema) passed place keywords →
          reference? keywords = some reference →
          definition? (Schema.definitions schema) reference ≠ none →
          ∃ above ∈ passed, ∃ other, reference? above = some other ∧
            definition? (Schema.definitions schema) other = none) ∧
        ((∀ keywords, schema = .obj keywords → reference? keywords = none) →
          resolveReferences (resolveReferences schema) = resolveReferences schema)) := by
  refine ⟨fun result => expands_iff, fun hacyclic => ⟨?_, fun hroot => ?_⟩⟩
  · intro passed place keywords reference hreached hreference hdefined
    rcases hreached.exists_meets hreference with hmeets | ⟨above, habove, other, hother, hmeets⟩
    · exact absurd (unresolvable_of_meets hacyclic hmeets) hdefined
    · exact ⟨above, habove, other, hother, unresolvable_of_meets hacyclic hmeets⟩
  · apply resolveReferences_eq_self
    intro reference hmeets
    have hnone := unresolvable_of_meets hacyclic hmeets
    cases schema with
    | obj keywords =>
      obtain ⟨f, heq⟩ := resolveReferences_obj (hroot keywords rfl)
      rw [heq]
      exact (definition?_mapSchemas_eq_none_iff f keywords reference).2 hnone
    | _ =>
      rw [resolveReferences, expand_of_not_obj rfl] at hmeets
      exact absurd hmeets (not_meets_of_not_obj rfl)

/-- An address has a city, and there is no definition of a street. -/
def addressBook : Json :=
  .obj [("$defs", .obj [("city", .obj [("type", .str "string")]),
      ("address", .obj [("items", .obj [("$ref", .str "#/definitions/city")])])]),
    ("items", .obj [("$ref", .str "#/$defs/address")]),
    ("not", .obj [("$ref", .str "#/$defs/street"), ("if", .obj [("$ref", .str "#/$defs/city")])])]

theorem acyclic_addressBook : Acyclic (Schema.definitions addressBook) := by
  apply acyclic_of_rank fun name => if name = "address" then 1 else 0
  rintro name other ⟨target, reference, hfound, hmeets, hname⟩
  have hdefinitions : Schema.definitions addressBook =
    [("city", .obj [("type", .str "string")]),
      ("address", .obj [("items", .obj [("$ref", .str "#/definitions/city")])])] := by rfl
  have hstring : ¬ Meets (.obj [("type", .str "string")]) reference := by
    rw [meets_iff_of_none (by rfl)]
    rintro ⟨e, he, -⟩
    cases he
  rw [hdefinitions, Entries.get?_cons, Entries.get?_cons] at hfound
  split at hfound
  · cases hfound
    exact absurd hmeets hstring
  · split at hfound
    · next haddress =>
      cases hfound
      rw [meets_iff_of_none (by rfl)] at hmeets
      obtain ⟨e, he, hmeets⟩ := hmeets
      rw [List.mem_singleton.1 he, meets_iff_of_some (by rfl)] at hmeets
      rw [hmeets] at hname
      have hcity : definitionName? "#/definitions/city" = some "city" := by rfl
      rw [hcity] at hname
      cases hname
      simp [← haddress]
    · cases hfound

theorem resolveReferences_complete_addressBook :
    Acyclic (Schema.definitions addressBook) ∧
      resolveReferences addressBook = .obj
        [("$defs", .obj [("city", .obj [("type", .str "string")]),
            ("address", .obj [("items", .obj [("type", .str "string")])])]),
          ("items", .obj [("items", .obj [("type", .str "string")])]),
          ("not", .obj [("$ref", .str "#/$defs/street"),
            ("if", .obj [("$ref", .str "#/$defs/city")])])] ∧
      resolveReferences (resolveReferences addressBook) = resolveReferences addressBook := by
  obtain ⟨hexpands, hresolved⟩ := resolveReferences_complete addressBook
  obtain ⟨-, hagain⟩ := hresolved acyclic_addressBook
  refine ⟨acyclic_addressBook, ?_, hagain ?_⟩
  · have hall : references addressBook = ["#/definitions/city", "#/$defs/address", "#/$defs/street",
      "#/$defs/city"] := by rfl
    have hcity : definition? (Schema.definitions addressBook) "#/definitions/city" =
        some (.obj [("type", .str "string")]) := by rfl
    have haddress : definition? (Schema.definitions addressBook) "#/$defs/address" =
        some (.obj [("items", .obj [("$ref", .str "#/definitions/city")])]) := by rfl
    have hstreet : definition? (Schema.definitions addressBook) "#/$defs/street" = none := by rfl
    rw [resolveReferences, hall]
    generalize Schema.definitions addressBook = definitions at *
    simp [addressBook, expand, inlineWith, inlineKeywords, inlineNamed, reference?, Entries.get?,
      Json.str?, holder?, others, hcity, haddress, hstreet]
  · rintro keywords heq
    cases heq
    rfl

end SchemaForm.Schema
