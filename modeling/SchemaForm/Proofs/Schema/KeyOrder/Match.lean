import SchemaForm.Proofs.Decimal.Binary64
import SchemaForm.Proofs.Schema.KeyOrder.Location
import SchemaForm.Proofs.Schema.Match

/-!
# Matching and the order of keys

What matching reads of a schema it looks up by its keyword, and what it reads of an object by the
name of the property. So the order of members makes no difference, neither in the schema nor in the
data. In the data numbers may differ too, by what matching does not read of them, so equal data are
accepted alike. Which texts a pattern matches is left open throughout.
-/

namespace SchemaForm.Schema

open Json Entries

/-- A comparison that keeps what matching reads of a number: its value as a double, and whether it
is whole. -/
structure Comparable (same : Number → Number → Bool) : Prop where
  equiv : ∀ m n, same m n = true → m.equiv n = true
  whole : ∀ m n, same m n = true → m.isWhole = n.isWhole

theorem comparable_identical : Comparable Number.identical where
  equiv _ _ := Number.equiv_of_identical
  whole m n h := by
    cases m with
    | int m =>
      cases n with
      | int n => rfl
      | float y => cases h
    | float x =>
      cases n with
      | int n => cases h
      | float y =>
        have hunits : x.units = y.units := by simpa [Number.identical, Binary64.eq] using h
        exact Binary64.isWhole_eq_of_units_eq hunits

theorem comparable_equiv : Comparable Number.equiv where
  equiv _ _ h := h
  whole m n h := by
    -- As doubles they are equal, and an integer is whole as a double too.
    have hdouble := Binary64.isWhole_eq_of_units_eq (Number.equiv_iff.1 h)
    have hwhole : ∀ n : Number, n.toBinary64.isWhole = n.isWhole := by
      intro n
      cases n with
      | int n => exact Binary64.isWhole_ofInt n
      | float x => rfl
    rw [← hwhole m, hdouble, hwhole n]

variable {engine : String → String → Bool} {same : Number → Number → Bool} {s s' d d' : Json}
  {data data' : Option Json} {xs ys fields fields' : Fields}

theorem admits_eq (hsame : Comparable same) (type : JsonType) (h : Congruent same d d') :
    type.admits d = type.admits d' := by
  cases h with
  | num h => cases type <;> simp [JsonType.admits, JsonType.of, hsame.whole _ _ h]
  | _ => cases type <;> rfl

theorem typesOf?_eq_of_reordered (h : Reordered s s') : typesOf? s = typesOf? s' := by
  cases h using Congruent.kinds with
  | arr xs ys h =>
    rw [typesOf?, typesOf?]
    congr 1
    induction h with
    | nil => rfl
    | cons hxy _ ih => rw [List.filterMap_cons, List.filterMap_cons, hxy.str?_eq, ih]
  | _ => rfl

theorem typeHolds_eq (hsame : Comparable same) (h : Reordered s s')
    (hdata : Option.Rel (Congruent same) data data') :
    typeHolds s data = typeHolds s' data' := by
  have htypes : types? s = types? s' :=
    bind_eq_of_rel (h.rel_get? "type") fun _ _ => typesOf?_eq_of_reordered
  unfold typeHolds
  rw [htypes]
  cases hdata with
  | none => rfl
  | some hd =>
    cases types? s' with
    | none => rfl
    | some types => simp only [Option.any_some, admits_eq hsame _ hd]

theorem requiredHolds_eq (h : Reordered s s')
    (hfields : SameMembers (Congruent same) fields fields') :
    requiredHolds s fields = requiredHolds s' fields' := by
  refine all_eq ?_ (rel_getD (h.rel_getItems? "required") .nil)
  intro name name' hname
  cases hname with
  | str key => exact hfields.contains_eq key
  | _ => rfl

theorem rangeHolds_eq (h : Reordered s s') {m n : Number} (hmn : m.equiv n = true) :
    rangeHolds s m = rangeHolds s' n := by
  have hunits := Number.equiv_iff.1 hmn
  have hbound := fun keyword => rel_bind (h.rel_get? keyword) fun _ _ => Reordered.rel_double?
  unfold rangeHolds
  dsimp only
  rw [any_eq_of_rel (hbound "minimum") fun x y hxy => ?_,
    any_eq_of_rel (hbound "maximum") fun x y hxy => ?_]
  · rw [Binary64.lt, Binary64.lt, hunits, hxy]
  · rw [Binary64.lt, Binary64.lt, hunits, hxy]

theorem textHolds_eq (h : Reordered s s') (text : String) :
    textHolds engine s text = textHolds engine s' text := by
  have hlength : (s.get? "minLength").bind nat? = (s'.get? "minLength").bind nat? :=
    bind_eq_of_rel (h.rel_get? "minLength") fun _ _ => Reordered.nat?_eq
  have hpattern : (s.get? "pattern").bind str? = (s'.get? "pattern").bind str? :=
    bind_eq_of_rel (h.rel_get? "pattern") fun _ _ => Congruent.str?_eq
  rw [textHolds, textHolds, hlength, hpattern]

theorem boundsHold_eq (hsame : Comparable same) (h : Reordered s s')
    (hdata : Option.Rel (Congruent same) data data') :
    boundsHold engine s data = boundsHold engine s' data' := by
  cases hdata with
  | none => rfl
  | some hd =>
    cases hd with
    | num hmn => exact rangeHolds_eq h (hsame.equiv _ _ hmn)
    | str text => exact textHolds_eq h text
    | _ => rfl

/-- Both schemas accept the same data, whatever the order of members in the data. -/
def AcceptsAlike (engine : String → String → Bool) (same : Number → Number → Bool)
    (s s' : Json) : Prop :=
  ∀ data data', Option.Rel (Congruent same) data data' →
    acceptsBy engine s data = acceptsBy engine s' data'

theorem namedHold_eq (h : SameMembers (AcceptsAlike engine same) xs ys)
    (hfields : SameMembers (Congruent same) fields fields') :
    namedHold engine xs fields = namedHold engine ys fields' := by
  rw [Bool.eq_iff_iff, namedHold_iff, namedHold_iff]
  constructor
  · refine h.forall_mem (P := fun key x => acceptsBy engine x (Entries.get? key fields) = true)
      (Q := fun key y => acceptsBy engine y (Entries.get? key fields') = true) ?_
    intro key x y hxy hx
    rwa [← hxy _ _ (hfields.values key)]
  · refine h.symm.forall_mem
      (P := fun key y => acceptsBy engine y (Entries.get? key fields') = true)
      (Q := fun key x => acceptsBy engine x (Entries.get? key fields) = true) ?_
    intro key y x hxy hy
    rwa [hxy _ _ (hfields.values key)]

theorem propertiesHold_eq_namedHold (keywords fields : Fields) :
    propertiesHold engine keywords fields = namedHold engine (properties keywords) fields := by
  rw [Bool.eq_iff_iff, propertiesHold_iff, namedHold_iff]

theorem membersHold_eq (hxy : Reordered (.obj xs) (.obj ys))
    (hproperties : ∀ fields fields', SameMembers (Congruent same) fields fields' →
      namedHold engine (properties xs) fields = namedHold engine (properties ys) fields')
    (hdata : Option.Rel (Congruent same) data data') :
    membersHold engine xs data = membersHold engine ys data' := by
  cases hdata with
  | none => rfl
  | some hd =>
    cases hd using Congruent.kinds with
    | obj fields fields' hfields =>
      rw [membersHold, membersHold, propertiesHold_eq_namedHold, propertiesHold_eq_namedHold,
        hproperties fields fields' hfields, requiredHolds_eq hxy hfields]
    | _ => rfl

theorem acceptsAlike_obj (hsame : Comparable same) (hxy : Reordered (.obj xs) (.obj ys))
    (hproperties : ∀ fields fields', SameMembers (Congruent same) fields fields' →
      namedHold engine (properties xs) fields = namedHold engine (properties ys) fields') :
    AcceptsAlike engine same (.obj xs) (.obj ys) := by
  intro data data' hdata
  have hequiv : ∀ v w, Congruent same v w → Congruent Number.equiv v w :=
    fun _ _ h => h.mono hsame.equiv
  rw [acceptsBy_obj, acceptsBy_obj]
  rcases rel_iff.1 (hxy.rel_get? "const") with ⟨hx, hy⟩ | ⟨x, y, hx, hy, hconst⟩
  · rw [show Entries.get? "const" xs = none from hx, show Entries.get? "const" ys = none from hy]
    dsimp only
    rcases rel_iff.1 (hxy.rel_getItems? "enum") with ⟨hx, hy⟩ | ⟨us, vs, hx, hy, henum⟩
    · rw [hx, hy]
      dsimp only
      rw [typeHolds_eq hsame hxy hdata, membersHold_eq hxy hproperties hdata,
        boundsHold_eq hsame hxy hdata]
    · rw [hx, hy]
      refine any_eq_of_rel hdata fun v w hvw => ?_
      exact any_eq (fun _ _ h => equiv_eq (hequiv v w hvw) (Reordered.equiv h)) henum
  · rw [show Entries.get? "const" xs = some x from hx,
      show Entries.get? "const" ys = some y from hy]
    exact any_eq_of_rel hdata fun v w hvw => equiv_eq (hequiv v w hvw) (Reordered.equiv hconst)

theorem acceptsBy_eq (hsame : Comparable same) (h : Reordered s s') :
    AcceptsAlike engine same s s' := by
  -- The schemas of properties are two levels down, so the induction speaks of them too.
  suffices hboth : AcceptsAlike engine same s s' ∧
      ∀ fields fields', SameMembers (Congruent same) fields fields' →
        namedHold engine (membersOf (some s)) fields =
          namedHold engine (membersOf (some s')) fields' from hboth.1
  induction h using Congruent.induct with
  | obj xs ys h =>
    constructor
    · refine acceptsAlike_obj hsame (Congruent.obj_iff.2 (h.mono fun _ _ h => h.1)) ?_
      intro fields fields' hfields
      unfold properties
      rcases rel_iff.1 (h.values "properties") with ⟨hx, hy⟩ | ⟨x, y, hx, hy, -, -, ih⟩
      · rw [hx, hy]
        rfl
      · rw [hx, hy]
        exact ih fields fields' hfields
    · intro fields fields' hfields
      exact namedHold_eq (h.mono fun _ _ ⟨_, ih, _⟩ => ih) hfields
  | _ => exact ⟨fun _ _ _ => by simp [acceptsBy], fun _ _ _ => rfl⟩

theorem accepts_eq [Patterns] (hsame : Comparable same) (h : Reordered s s')
    (data data' : Option Json)
    (hdata : Option.Rel (Congruent same) data data') : accepts s data = accepts s' data' :=
  acceptsBy_eq hsame h data data' hdata

/-! ### Equal data -/

/-- Equality with the semantics of JSON numbers is an equivalence, identical values are equal, and no
schema tells equal data apart, whatever texts its patterns match. -/
theorem equiv_respected :
    Equivalence (fun v w : Document => (v : Json).equiv w = true) ∧
      ∀ v w : Document, ((v : Json).identical w = true → (v : Json).equiv w = true) ∧
        ((v : Json).equiv w = true → ∀ engine (schema : Document),
          acceptsBy engine schema (some v.value) = acceptsBy engine schema (some w.value)) := by
  constructor
  · exact ⟨fun v => equiv_self v.keysUnique, fun {v w} => equiv_symm v.keysUnique w.keysUnique,
      fun {u v w} => equiv_trans u.keysUnique v.keysUnique w.keysUnique⟩
  · intro v w
    constructor
    · intro h
      exact (Reordered.equiv (reordered_iff.2 ⟨v.keysUnique, w.keysUnique, h⟩)).agree_eq_true
    · intro h engine schema
      exact acceptsBy_eq comparable_equiv (Reordered.refl schema.keysUnique) _ _
        (.some (Congruent.of_agree v.keysUnique w w.keysUnique h))

/-- A name and a count, with the count first. -/
def countFirst : Json := .obj [("count", int 1), ("name", .str "x")]

/-- The name and the count as a float, with the name first. -/
def nameFirst : Json := .obj [("name", .str "x"), ("count", .num (.float (Binary64.ofInt 1)))]

/-- The count is whole, and the name matches a pattern. -/
def countedName : Json := .obj
  [("properties", .obj
    [("count", .obj [("type", .str "integer")]), ("name", .obj [("pattern", .str "x")])])]

/-- A float in another place is as good a count, also where a pattern matches itself alone. -/
theorem equiv_respected_count :
    countFirst.KeysUnique ∧ nameFirst.KeysUnique ∧ countedName.KeysUnique ∧
      countFirst.equiv nameFirst = true ∧ nameFirst.equiv countFirst = true ∧
      acceptsBy (· == ·) countedName (some countFirst) =
        acceptsBy (· == ·) countedName (some nameFirst) := by
  have hfirst : countFirst.KeysUnique := by simp [countFirst]
  have hlast : nameFirst.KeysUnique := by simp [nameFirst]
  have hschema : countedName.KeysUnique := by simp [countedName]
  have hnumber : (Number.int 1).equiv (.float (Binary64.ofInt 1)) = true := Number.equiv_iff.2 rfl
  have hequiv : countFirst.equiv nameFirst = true := by
    simpa [countFirst, nameFirst, Json.equiv, agree, agreeEntries, Entries.get?, int] using hnumber
  obtain ⟨hequivalence, hrespected⟩ := equiv_respected
  exact ⟨hfirst, hlast, hschema, hequiv,
    hequivalence.symm (x := ⟨countFirst, hfirst⟩) (y := ⟨nameFirst, hlast⟩) hequiv,
    (hrespected ⟨countFirst, hfirst⟩ ⟨nameFirst, hlast⟩).2 hequiv _ ⟨countedName, hschema⟩⟩

end SchemaForm.Schema
