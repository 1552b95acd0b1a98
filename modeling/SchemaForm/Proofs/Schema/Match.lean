import SchemaForm.Proofs.Json.KeysUnique
import SchemaForm.Schema.Match
import SchemaForm.Schema.Merge

/-!
# What matching asks for

A schema with `const` or `enum` is decided by that alone. Any other schema object accepts data
exactly if every keyword that matching reads is met, each by itself; `Fits` lists them.
-/

namespace SchemaForm

namespace JsonType

theorem ofName?_eq_some_iff {name : String} {type : JsonType} :
    ofName? name = some type ↔ name = type.name := by
  constructor
  · intro h
    have hname := List.find?_some h
    exact (beq_iff_eq.1 hname).symm
  · rintro rfl
    cases type <;> rfl

/-- Two types that admit one value are the same, unless the value is a whole number. -/
theorem eq_or_whole_of_admits {type other : JsonType} {v : Json} (h : type.admits v = true)
    (h' : other.admits v = true) :
    type = other ∨ ∃ n, v = .num n ∧ n.isWhole = true ∧
      ((type = integer ∧ other = number) ∨ (type = number ∧ other = integer)) := by
  cases v with
  | num n => cases type <;> cases other <;> simp_all [admits, of]
  | _ => cases type <;> cases other <;> simp_all [admits, of]

end JsonType

namespace Schema

open Json

variable {engine : String → String → Bool} {keywords : Fields} {data : Option Json}

/-- Neither `const` nor `enum` decides alone. -/
structure Undecided (keywords : Fields) : Prop where
  const : Entries.get? "const" keywords = none
  enum : (Json.obj keywords).getItems? "enum" = none

/-- The names that a schema requires, among them what is no text. -/
def requiredItems (keywords : Fields) : List Json :=
  ((Json.obj keywords).getItems? "required").getD []

/-- The schema asks for a member to be there. -/
def Requires (schema : Json) (name : String) : Prop :=
  .str name ∈ (schema.getItems? "required").getD []

/-- The schemas of the properties. -/
def properties (keywords : Fields) : Fields := membersOf (Entries.get? "properties" keywords)

/-- A bound on numbers. -/
def bound? (keyword : String) (keywords : Fields) : Option Binary64 :=
  (Entries.get? keyword keywords).bind double?

/-- Every keyword that matching reads besides `const` and `enum` is met. -/
structure Fits [Patterns] (keywords : Fields) (data : Option Json) : Prop where
  types : ∀ types, types? (.obj keywords) = some types →
    ∃ d, data = some d ∧ ∃ type ∈ types, type.admits d = true
  properties : ∀ fields, data = some (.obj fields) → ∀ entry ∈ properties keywords,
    accepts entry.2 (Entries.get? entry.1 fields) = true
  required : ∀ fields, data = some (.obj fields) → ∀ name, .str name ∈ requiredItems keywords →
    Entries.contains name fields = true
  minimum : ∀ n, data = some (.num n) → ∀ least, bound? "minimum" keywords = some least →
    least.units ≤ n.toBinary64.units
  maximum : ∀ n, data = some (.num n) → ∀ most, bound? "maximum" keywords = some most →
    n.toBinary64.units ≤ most.units
  minLength : ∀ s, data = some (.str s) → ∀ least,
    (Entries.get? "minLength" keywords).bind nat? = some least → least ≤ s.length
  pattern : ∀ s, data = some (.str s) → ∀ pattern,
    (Entries.get? "pattern" keywords).bind str? = some pattern → patternHolds pattern s = true

/-! ### Keyword by keyword -/

theorem typeHolds_iff : typeHolds (.obj keywords) data = true ↔
    ∀ types, types? (.obj keywords) = some types →
      ∃ d, data = some d ∧ ∃ type ∈ types, type.admits d = true := by
  unfold typeHolds
  cases htypes : types? (.obj keywords) with
  | none => simp
  | some types => cases data <;> simp

theorem namedHold_iff {named : List (String × Json)} {fields : Fields} :
    namedHold engine named fields = true ↔
      ∀ entry ∈ named, acceptsBy engine entry.2 (Entries.get? entry.1 fields) = true := by
  induction named with
  | nil => simp [namedHold]
  | cons entry rest ih =>
    rw [namedHold, Bool.and_eq_true, ih, List.forall_mem_cons]

theorem propertiesHold_iff {fields : Fields} : propertiesHold engine keywords fields = true ↔
    ∀ entry ∈ properties keywords,
      acceptsBy engine entry.2 (Entries.get? entry.1 fields) = true := by
  unfold properties
  induction keywords with
  | nil => simp [propertiesHold, membersOf]
  | cons entry rest ih =>
    obtain ⟨keyword, v⟩ := entry
    rw [Entries.get?_cons]
    by_cases hkeyword : keyword = "properties"
    · cases v <;> simp [propertiesHold, hkeyword, membersOf, fields?, namedHold_iff]
    · cases v <;> simpa [propertiesHold, hkeyword] using ih

theorem requiredHolds_iff {fields : Fields} : requiredHolds (.obj keywords) fields = true ↔
    ∀ name, .str name ∈ requiredItems keywords → Entries.contains name fields = true := by
  rw [requiredHolds, List.all_eq_true]
  constructor
  · intro h name hname
    exact h _ hname
  · intro h item hitem
    cases item with
    | str name => exact h name hitem
    | _ => rfl

theorem rangeHolds_iff {n : Number} : rangeHolds (.obj keywords) n = true ↔
    (∀ least, bound? "minimum" keywords = some least → least.units ≤ n.toBinary64.units) ∧
      ∀ most, bound? "maximum" keywords = some most → n.toBinary64.units ≤ most.units := by
  have hget : ∀ keyword, ((Json.obj keywords).get? keyword).bind double? =
      bound? keyword keywords := fun _ => rfl
  rw [rangeHolds]
  simp only [hget]
  cases bound? "minimum" keywords <;> cases bound? "maximum" keywords <;>
    simp [Binary64.lt]

theorem textHolds_iff {s : String} : textHolds engine (.obj keywords) s = true ↔
    (∀ least, (Entries.get? "minLength" keywords).bind nat? = some least → least ≤ s.length) ∧
      ∀ pattern, (Entries.get? "pattern" keywords).bind str? = some pattern →
        engine pattern s = true := by
  rw [textHolds]
  simp only [Json.get?]
  cases (Entries.get? "minLength" keywords).bind nat? <;>
    cases (Entries.get? "pattern" keywords).bind str? <;> simp

/-! ### All keywords -/

/-- The keywords about members are met; they apply to objects alone. -/
def membersHold (engine : String → String → Bool) (keywords : Fields) : Option Json → Bool
  | some (.obj fields) =>
    propertiesHold engine keywords fields && requiredHolds (.obj keywords) fields
  | _ => true

theorem acceptsBy_obj (engine : String → String → Bool) (keywords : Fields) (data : Option Json) :
    acceptsBy engine (.obj keywords) data =
      match Entries.get? "const" keywords with
      | some expected => data.any fun d => d.equiv expected
      | none =>
        match (Json.obj keywords).getItems? "enum" with
        | some options => data.any fun d => options.any d.equiv
        | none =>
          typeHolds (.obj keywords) data && membersHold engine keywords data &&
            boundsHold engine (.obj keywords) data := by
  cases data with
  | none =>
    rw [acceptsBy]
    · rfl
    · intro fields h
      cases h
  | some d =>
    cases d with
    | obj fields =>
      rw [acceptsBy]
      rfl
    | _ =>
      rw [acceptsBy]
      · rfl
      · intro fields h
        cases h

theorem accepts_obj [Patterns] (keywords : Fields) (data : Option Json) :
    accepts (.obj keywords) data =
      match Entries.get? "const" keywords with
      | some expected => data.any fun d => d.equiv expected
      | none =>
        match (Json.obj keywords).getItems? "enum" with
        | some options => data.any fun d => options.any d.equiv
        | none =>
          typeHolds (.obj keywords) data && membersHold patternHolds keywords data &&
            boundsHold patternHolds (.obj keywords) data :=
  acceptsBy_obj patternHolds keywords data

theorem accepts_of_const [Patterns] {expected : Json}
    (h : Entries.get? "const" keywords = some expected) :
    accepts (.obj keywords) data = data.any fun d => d.equiv expected := by
  rw [accepts_obj, h]

theorem accepts_of_enum [Patterns] {options : List Json}
    (hconst : Entries.get? "const" keywords = none)
    (h : (Json.obj keywords).getItems? "enum" = some options) :
    accepts (.obj keywords) data = data.any fun d => options.any d.equiv := by
  rw [accepts_obj, hconst, h]

/-- A schema that nothing decides alone accepts what meets all its keywords. -/
theorem accepts_iff_fits [Patterns] (h : Undecided keywords) :
    accepts (.obj keywords) data = true ↔ Fits keywords data := by
  rw [accepts_obj, h.const, h.enum]
  dsimp only
  rw [Bool.and_eq_true, Bool.and_eq_true, typeHolds_iff]
  constructor
  · rintro ⟨⟨htypes, hmembers⟩, hbounds⟩
    refine ⟨htypes, ?_, ?_, ?_, ?_, ?_, ?_⟩
    · rintro fields rfl
      exact propertiesHold_iff.1 (Bool.and_eq_true_iff.1 hmembers).1
    · rintro fields rfl
      exact requiredHolds_iff.1 (Bool.and_eq_true_iff.1 hmembers).2
    · rintro n rfl
      exact (rangeHolds_iff.1 hbounds).1
    · rintro n rfl
      exact (rangeHolds_iff.1 hbounds).2
    · rintro s rfl
      exact (textHolds_iff.1 hbounds).1
    · rintro s rfl
      exact (textHolds_iff.1 hbounds).2
  · intro hfits
    refine ⟨⟨hfits.types, ?_⟩, ?_⟩
    · unfold membersHold
      split
      · next fields =>
        rw [Bool.and_eq_true]
        exact ⟨propertiesHold_iff.2 (hfits.properties fields rfl),
          requiredHolds_iff.2 (hfits.required fields rfl)⟩
      · rfl
    · unfold boundsHold
      split
      · next n => exact rangeHolds_iff.2 ⟨hfits.minimum n rfl, hfits.maximum n rfl⟩
      · next s => exact textHolds_iff.2 ⟨hfits.minLength s rfl, hfits.pattern s rfl⟩
      · rfl

end Schema
end SchemaForm
