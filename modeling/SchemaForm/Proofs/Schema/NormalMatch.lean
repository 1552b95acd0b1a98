import SchemaForm.Proofs.Schema.Match
import SchemaForm.Proofs.Schema.Normalize
import SchemaForm.Regex.Engine

/-!
# Matching and the normal form

Matching reads `minimum` and `maximum` and no exclusive bound. Where an exclusive bound is `true`,
the normal form moves the plain bound out of the sight of matching, so there it accepts data that
misses the bound. This is all the difference: every other keyword that matching reads holds the same
after as before.
-/

namespace SchemaForm.Schema

open Json Entries

variable {keywords : Fields} {data : Option Json}

/-! ### What matching reads in the normal form -/

theorem get?_normalize (h : MembersUnique keywords) (key : String) (hkey : key ∉ respelled)
    (hholder : holder? key = none) :
    Entries.get? key (mapSchemas normalize (currentKeywords keywords)) =
      Entries.get? key keywords := by
  rw [get?_mapSchemas_of_not_holder _ hholder, get?_currentKeywords h hkey]

theorem properties_normalize (h : MembersUnique keywords) :
    properties (mapSchemas normalize (currentKeywords keywords)) =
      (properties keywords).map fun entry => (entry.1, normalize entry.2) := by
  have hholder : holder? "properties" = some .byName := rfl
  rw [properties, get?_mapSchemas, get?_currentKeywords h (by decide), hholder, properties]
  cases hv : Entries.get? "properties" keywords with
  | none => rfl
  | some v => cases v <;> rfl

/-- An exclusive bound that is `true` takes the plain bound away, and any other leaves it. -/
theorem bound?_normalize (h : MembersUnique keywords) (exclusive bound : String)
    (hpair : (exclusive, bound) ∈
      [("exclusiveMinimum", "minimum"), ("exclusiveMaximum", "maximum")]) :
    (Entries.get? exclusive keywords = some (.bool true) →
      bound? bound (mapSchemas normalize (currentKeywords keywords)) = none) ∧
    (Entries.get? exclusive keywords ≠ some (.bool true) →
      bound? bound (mapSchemas normalize (currentKeywords keywords)) = bound? bound keywords) := by
  obtain ⟨-, hsplit, hbounded, -⟩ := membersUnique_steps h
  simp only [List.mem_cons, List.not_mem_nil, or_false, Prod.mk.injEq] at hpair
  unfold bound?
  rcases hpair with ⟨rfl, rfl⟩ | ⟨rfl, rfl⟩
  · have hexclusive : Entries.get? "exclusiveMinimum" (splitTuple (renameDefinitions keywords)) =
        Entries.get? "exclusiveMinimum" keywords :=
      get?_splitTuple_renameDefinitions h (by decide)
    rw [get?_mapSchemas_of_not_holder _ rfl, get?_currentKeywords_eq h (by decide),
      get?_numberBound hbounded (by decide), ← hexclusive]
    constructor
    · intro hflag
      rw [bound_numberBound_of_true hsplit (by decide) hflag]
      rfl
    · intro hflag
      rw [bound_numberBound_of_ne hsplit (by decide) hflag,
        get?_splitTuple_renameDefinitions h (by decide)]
  · have hexclusive : Entries.get? "exclusiveMaximum"
        (numberBound "exclusiveMinimum" "minimum" (splitTuple (renameDefinitions keywords))) =
          Entries.get? "exclusiveMaximum" keywords := by
      rw [get?_numberBound hsplit (by decide), get?_splitTuple_renameDefinitions h (by decide)]
    rw [get?_mapSchemas_of_not_holder _ rfl, get?_currentKeywords_eq h (by decide), ← hexclusive]
    constructor
    · intro hflag
      rw [bound_numberBound_of_true hbounded (by decide) hflag]
      rfl
    · intro hflag
      rw [bound_numberBound_of_ne hbounded (by decide) hflag, get?_numberBound hsplit (by decide),
        get?_splitTuple_renameDefinitions h (by decide)]

/-! ### Bounds that the normal form hides -/

/-- The data misses a bound that an exclusive bound makes strict, in a schema that decides about the
data, or in that of a property about its member. -/
inductive Misses : Json → Option Json → Prop where
  | minimum {keywords : Fields} {n : Number} {least : Binary64} (h : Undecided keywords)
      (hflag : Entries.get? "exclusiveMinimum" keywords = some (.bool true))
      (hbound : bound? "minimum" keywords = some least) (hmiss : n.toBinary64.units < least.units) :
      Misses (.obj keywords) (some (.num n))
  | maximum {keywords : Fields} {n : Number} {most : Binary64} (h : Undecided keywords)
      (hflag : Entries.get? "exclusiveMaximum" keywords = some (.bool true))
      (hbound : bound? "maximum" keywords = some most) (hmiss : most.units < n.toBinary64.units) :
      Misses (.obj keywords) (some (.num n))
  | property {keywords fields : Fields} {entry : String × Json} (h : Undecided keywords)
      (hentry : entry ∈ properties keywords)
      (hmiss : Misses entry.2 (Entries.get? entry.1 fields)) :
      Misses (.obj keywords) (some (.obj fields))

theorem Misses.undecided (h : Misses (.obj keywords) data) : Undecided keywords := by
  cases h with
  | minimum h => exact h
  | maximum h => exact h
  | property h => exact h

/-- Two schemas hold the same under the keywords that matching reads, properties and bounds on
numbers apart. -/
structure AlikeButBounds (xs ys : Fields) : Prop where
  types : types? (.obj xs) = types? (.obj ys)
  required : requiredItems xs = requiredItems ys
  minLength : Entries.get? "minLength" xs = Entries.get? "minLength" ys
  pattern : Entries.get? "pattern" xs = Entries.get? "pattern" ys

theorem AlikeButBounds.symm {xs ys : Fields} (h : AlikeButBounds xs ys) : AlikeButBounds ys xs :=
  ⟨h.types.symm, h.required.symm, h.minLength.symm, h.pattern.symm⟩

theorem alikeButBounds_normalize (h : MembersUnique keywords) :
    AlikeButBounds (mapSchemas normalize (currentKeywords keywords)) keywords where
  types := congrArg (Option.bind · typesOf?) (get?_normalize h "type" (by decide) rfl)
  required := congrArg (fun v => (Option.bind v items?).getD [])
    (get?_normalize h "required" (by decide) rfl)
  minLength := get?_normalize h "minLength" (by decide) rfl
  pattern := get?_normalize h "pattern" (by decide) rfl

/-- What is left to check where two schemas are alike but for properties and bounds. -/
theorem fits_of_alike [Patterns] {xs ys : Fields} (h : Fits xs data) (halike : AlikeButBounds xs ys)
    (hproperties : ∀ fields, data = some (.obj fields) → ∀ entry ∈ properties ys,
      accepts entry.2 (Entries.get? entry.1 fields) = true)
    (hminimum : ∀ n, data = some (.num n) → ∀ least, bound? "minimum" ys = some least →
      least.units ≤ n.toBinary64.units)
    (hmaximum : ∀ n, data = some (.num n) → ∀ most, bound? "maximum" ys = some most →
      n.toBinary64.units ≤ most.units) : Fits ys data where
  types := halike.types ▸ h.types
  properties := hproperties
  required := halike.required ▸ h.required
  minimum := hminimum
  maximum := hmaximum
  minLength := halike.minLength ▸ h.minLength
  pattern := halike.pattern ▸ h.pattern

section

variable [Patterns] (h : MembersUnique keywords)
  (hproperties : ∀ entry ∈ properties keywords, ∀ data, accepts entry.2 data = true ↔
    accepts (normalize entry.2) data = true ∧ ¬ Misses entry.2 data)
include h hproperties

theorem fits_normalize (hfits : Fits keywords data) :
    Fits (mapSchemas normalize (currentKeywords keywords)) data := by
  obtain ⟨hgone, hleast⟩ := bound?_normalize h "exclusiveMinimum" "minimum" (by decide)
  obtain ⟨hgone', hmost⟩ := bound?_normalize h "exclusiveMaximum" "maximum" (by decide)
  apply fits_of_alike hfits (alikeButBounds_normalize h).symm
  · intro fields hfields entry hentry
    rw [properties_normalize h] at hentry
    obtain ⟨original, horiginal, rfl⟩ := List.mem_map.1 hentry
    have haccepts := hfits.properties fields hfields original horiginal
    exact ((hproperties original horiginal _).1 haccepts).1
  · intro n hn least hbound
    by_cases hflag : Entries.get? "exclusiveMinimum" keywords = some (.bool true)
    · rw [hgone hflag] at hbound
      cases hbound
    · exact hfits.minimum n hn least (hleast hflag ▸ hbound)
  · intro n hn most hbound
    by_cases hflag : Entries.get? "exclusiveMaximum" keywords = some (.bool true)
    · rw [hgone' hflag] at hbound
      cases hbound
    · exact hfits.maximum n hn most (hmost hflag ▸ hbound)

omit h in
theorem not_misses_of_fits (hfits : Fits keywords data) :
    ¬ Misses (.obj keywords) data := by
  intro hmisses
  cases hmisses with
  | minimum _ _ hbound hmiss => exact absurd (hfits.minimum _ rfl _ hbound) (Int.not_le.2 hmiss)
  | maximum _ _ hbound hmiss => exact absurd (hfits.maximum _ rfl _ hbound) (Int.not_le.2 hmiss)
  | property _ hentry hmiss =>
    exact ((hproperties _ hentry _).1 (hfits.properties _ rfl _ hentry)).2 hmiss

theorem fits_of_normalize (hundecided : Undecided keywords)
    (hfits : Fits (mapSchemas normalize (currentKeywords keywords)) data)
    (hmisses : ¬ Misses (.obj keywords) data) : Fits keywords data := by
  obtain ⟨-, hleast⟩ := bound?_normalize h "exclusiveMinimum" "minimum" (by decide)
  obtain ⟨-, hmost⟩ := bound?_normalize h "exclusiveMaximum" "maximum" (by decide)
  apply fits_of_alike hfits (alikeButBounds_normalize h)
  · rintro fields rfl entry hentry
    have hmapped : (entry.1, normalize entry.2) ∈
        properties (mapSchemas normalize (currentKeywords keywords)) := by
      rw [properties_normalize h]
      exact List.mem_map.2 ⟨entry, hentry, rfl⟩
    refine (hproperties entry hentry _).2 ⟨hfits.properties fields rfl _ hmapped, fun hmiss => ?_⟩
    exact hmisses (.property hundecided hentry hmiss)
  · rintro n rfl least hbound
    by_cases hflag : Entries.get? "exclusiveMinimum" keywords = some (.bool true)
    · -- The normal form does not see this bound, but the data does not miss it.
      exact Int.not_lt.1 fun hmiss => hmisses (.minimum hundecided hflag hbound hmiss)
    · exact hfits.minimum n rfl least ((hleast hflag).trans hbound)
  · rintro n rfl most hbound
    by_cases hflag : Entries.get? "exclusiveMaximum" keywords = some (.bool true)
    · exact Int.not_lt.1 fun hmiss => hmisses (.maximum hundecided hflag hbound hmiss)
    · exact hfits.maximum n rfl most ((hmost hflag).trans hbound)

end

/-- The schema of a property stands directly below. -/
theorem exists_mem_below_of_mem_properties {entry : String × Json}
    (h : entry ∈ properties keywords) : ∃ e ∈ below keywords, e.2 = entry.2 := by
  obtain ⟨named, hnamed, hentry⟩ : ∃ named, Entries.get? "properties" keywords =
      some (.obj named) ∧ entry ∈ named := by
    rw [properties, membersOf] at h
    cases hv : Entries.get? "properties" keywords with
    | none =>
      rw [hv] at h
      cases h
    | some v =>
      rw [hv] at h
      cases v with
      | obj named => exact ⟨named, rfl, h⟩
      | _ => cases h
  exact ⟨_, mem_below_of_held (mem_of_get? hnamed) (List.mem_map.2 ⟨entry, hentry, rfl⟩), rfl⟩

/-- A schema accepts what its normal form accepts, except where the data misses a bound that an
exclusive bound makes strict: matching sees this bound in the schema alone. -/
theorem accepts_iff_normalize [Patterns] (schema : Document) (data : Option Json) :
    accepts schema data = true ↔
      accepts (normalize schema) data = true ∧ ¬ Misses schema data := by
  obtain ⟨schema, hunique⟩ := schema
  dsimp only
  induction schema using induct_below generalizing data with
  | leaf v hv =>
    have hnot : ¬ Misses v data := by
      intro h
      cases h <;> cases hv
    rw [normalize_of_not_obj hv, and_iff_left hnot]
  | object keywords ih =>
    have hmembers := keysUnique_obj_iff.1 hunique
    rw [normalize_obj]
    have hconst := get?_normalize hmembers "const" (by decide) rfl
    have henum : (Json.obj (mapSchemas normalize (currentKeywords keywords))).getItems? "enum" =
        (Json.obj keywords).getItems? "enum" :=
      congrArg (Option.bind · items?) (get?_normalize hmembers "enum" (by decide) rfl)
    cases hexpected : Entries.get? "const" keywords with
    | some expected =>
      rw [accepts_of_const hexpected, accepts_of_const (hconst.trans hexpected), iff_self_and]
      rintro - hmiss
      rw [hmiss.undecided.const] at hexpected
      cases hexpected
    | none =>
      cases hoptions : (Json.obj keywords).getItems? "enum" with
      | some options =>
        rw [accepts_of_enum hexpected hoptions, accepts_of_enum (hconst.trans hexpected)
          (henum.trans hoptions), iff_self_and]
        rintro - hmiss
        rw [hmiss.undecided.enum] at hoptions
        cases hoptions
      | none =>
        have hundecided : Undecided keywords := ⟨hexpected, hoptions⟩
        rw [accepts_iff_fits hundecided, accepts_iff_fits
          ⟨hconst.trans hexpected, henum.trans hoptions⟩]
        have hproperties : ∀ entry ∈ properties keywords, ∀ data, accepts entry.2 data = true ↔
            accepts (normalize entry.2) data = true ∧ ¬ Misses entry.2 data := by
          intro entry hentry
          obtain ⟨e, he, heq⟩ := exists_mem_below_of_mem_properties hentry
          rw [← heq]
          exact fun data => ih e he data (keysUnique_of_mem_below hmembers he)
        constructor
        · intro hfits
          exact ⟨fits_normalize hmembers hproperties hfits, not_misses_of_fits hproperties hfits⟩
        · rintro ⟨hfits, hmisses⟩
          exact fits_of_normalize hmembers hproperties hundecided hfits hmisses

/-- A strict bound in the spelling of old. -/
def strictMinimum : Json := .obj [("minimum", .int 5), ("exclusiveMinimum", .bool true)]

/-- The normal form accepts a number below the bound, and the schema does not. -/
theorem normalize_accepts_below_strictMinimum :
    strictMinimum.KeysUnique ∧ strictMinimum.EveryMember Movable ∧
      accepts strictMinimum (some (.int 4)) = false ∧
      accepts (normalize strictMinimum) (some (.int 4)) = true := by
  refine ⟨by simp [strictMinimum], ?_, by decide +kernel, by decide +kernel⟩
  simp [strictMinimum, Movable, Json.int]

theorem accepts_iff_normalize_strictMinimum :
    strictMinimum.KeysUnique ∧ accepts strictMinimum (some (.int 6)) = true ∧
      accepts (normalize strictMinimum) (some (.int 6)) = true ∧
      ¬ Misses strictMinimum (some (.int 6)) ∧ Misses strictMinimum (some (.int 4)) := by
  have hunique : strictMinimum.KeysUnique := by simp [strictMinimum]
  have haccepts : accepts strictMinimum (some (.int 6)) = true := by decide +kernel
  obtain ⟨hnormal, hmisses⟩ := (accepts_iff_normalize ⟨strictMinimum, hunique⟩ _).1 haccepts
  have hmiss : Misses strictMinimum (some (.int 4)) :=
    .minimum ⟨rfl, rfl⟩ rfl rfl (by decide +kernel)
  exact ⟨hunique, haccepts, hnormal, hmisses, hmiss⟩

end SchemaForm.Schema
