import SchemaForm.Proofs.Json.Congruent
import SchemaForm.Proofs.Schema.Location

/-!
# Places of schemas and the order of keywords

A rebuilding of schemas replaces the schemas directly below a schema, and then does something of its
own at the schema. If what it does there does not depend on the order of keywords, neither does the
rebuilding as a whole.
-/

namespace SchemaForm.Schema

open Json Entries

variable {f g : Json → Json} {v w : Json} {xs ys : Fields}

/-! ### The schemas directly below -/

theorem sameMembers_membersOf {a a' : Option Json} (h : Option.Rel Reordered a a') :
    SameMembers Reordered (membersOf a) (membersOf a') :=
  rel_getD (rel_bind h fun _ _ => Congruent.rel_fields?) .nil

theorem reordered_mapHeld_scalar (h : Reordered v w) (hobj : v.isObj = false)
    (harr : v.isArr = false) (holder : Option Holder) :
    Reordered (mapHeld f holder v) (mapHeld g holder w) := by
  rw [mapHeld_scalar hobj harr, mapHeld_scalar (h.isObj_eq ▸ hobj) (h.isArr_eq ▸ harr)]
  exact h

theorem reordered_mapHeld_arr {xs ys : List Json}
    (h : List.Forall₂ (fun x y => Reordered x y ∧ Reordered (f x) (g y)) xs ys)
    (holder : Option Holder) :
    Reordered (mapHeld f holder (.arr xs)) (mapHeld g holder (.arr ys)) := by
  have hsame : Reordered (.arr xs) (.arr ys) := Congruent.arr_iff.2 (h.imp fun _ _ h => h.1)
  match holder with
  | some .list =>
    refine Congruent.arr_iff.2 (List.rel_map ?_ h)
    intro x y hxy
    exact hxy.2
  | some .byName => exact hsame
  | some .single => exact hsame
  | none => exact hsame

theorem reordered_mapHeld_obj
    (h : SameMembers (fun x y => Reordered x y ∧ Reordered (f x) (g y)) xs ys)
    (hself : Reordered (f (.obj xs)) (g (.obj ys))) (holder : Option Holder) :
    Reordered (mapHeld f holder (.obj xs)) (mapHeld g holder (.obj ys)) := by
  have hsame : Reordered (.obj xs) (.obj ys) := Congruent.obj_iff.2 (h.mono fun _ _ h => h.1)
  match holder with
  | some .byName => exact Congruent.obj_iff.2 (h.map fun _ _ _ hxy => hxy.2)
  | some .single => exact hself
  | some .list => exact hsame
  | none => exact hsame

theorem reordered_mapHeld (hfg : ∀ v w, Reordered v w → Reordered (f v) (g w))
    (h : Reordered v w) (holder : Option Holder) :
    Reordered (mapHeld f holder v) (mapHeld g holder w) := by
  cases h using Congruent.kinds with
  | arr xs ys h => exact reordered_mapHeld_arr (h.imp fun x y hxy => ⟨hxy, hfg x y hxy⟩) holder
  | obj xs ys h =>
    exact reordered_mapHeld_obj (h.mono fun x y hxy => ⟨hxy, hfg x y hxy⟩)
      (hfg _ _ (Congruent.obj_iff.2 h)) holder
  | null => exact reordered_mapHeld_scalar .null rfl rfl holder
  | bool b => exact reordered_mapHeld_scalar (.bool b) rfl rfl holder
  | num m n h => exact reordered_mapHeld_scalar (.num h) rfl rfl holder
  | str s => exact reordered_mapHeld_scalar (.str s) rfl rfl holder

theorem sameMembers_mapSchemas
    (h : SameMembers (fun x y => ∀ holder, Reordered (mapHeld f holder x) (mapHeld g holder y))
      xs ys) :
    SameMembers Reordered (mapSchemas f xs) (mapSchemas g ys) :=
  h.map fun key _ _ hxy => hxy (holder? key)

/-! ### Rebuilding -/

/-- What two rebuildings do at related schemas is related, if what they make of the schemas directly
below is. -/
structure RebuildAlike (f g : Json → Json) : Prop where
  leaf : ∀ v, v.isObj = false → f v = v
  leaf' : ∀ v, v.isObj = false → g v = v
  object : ∀ xs ys, SameMembers Reordered xs ys →
    SameMembers Reordered (mapSchemas f xs) (mapSchemas g ys) →
    Reordered (f (.obj xs)) (g (.obj ys))

namespace RebuildAlike

theorem of_not_obj (hfg : RebuildAlike f g) (h : Reordered v w) (hobj : v.isObj = false) :
    Reordered (f v) (g w) := by
  rw [hfg.leaf v hobj, hfg.leaf' w (h.isObj_eq ▸ hobj)]
  exact h

theorem reordered (hfg : RebuildAlike f g) (h : Reordered v w) : Reordered (f v) (g w) := by
  -- The schemas below a schema are two levels down where names stand between, so the induction
  -- speaks of the value of a keyword too.
  suffices hboth : Reordered (f v) (g w) ∧
      ∀ holder, Reordered (mapHeld f holder v) (mapHeld g holder w) from hboth.1
  induction h using Congruent.induct with
  | null => exact ⟨hfg.of_not_obj .null rfl, reordered_mapHeld_scalar .null rfl rfl⟩
  | bool b => exact ⟨hfg.of_not_obj (.bool b) rfl, reordered_mapHeld_scalar (.bool b) rfl rfl⟩
  | num m n h => exact ⟨hfg.of_not_obj (.num h) rfl, reordered_mapHeld_scalar (.num h) rfl rfl⟩
  | str s => exact ⟨hfg.of_not_obj (.str s) rfl, reordered_mapHeld_scalar (.str s) rfl rfl⟩
  | arr xs ys h =>
    constructor
    · exact hfg.of_not_obj (Congruent.arr_iff.2 (h.imp fun _ _ h => h.1)) rfl
    · exact reordered_mapHeld_arr (h.imp fun _ _ ⟨hxy, ih, _⟩ => ⟨hxy, ih⟩)
  | obj xs ys h =>
    have hself : Reordered (f (.obj xs)) (g (.obj ys)) :=
      hfg.object xs ys (h.mono fun _ _ h => h.1)
        (sameMembers_mapSchemas (h.mono fun _ _ ⟨_, _, ih⟩ => ih))
    exact ⟨hself, reordered_mapHeld_obj (h.mono fun _ _ ⟨hxy, ih, _⟩ => ⟨hxy, ih⟩) hself⟩

end RebuildAlike

theorem reordered_bottomUp {f g : Fields → Json}
    (hfg : ∀ xs ys, SameMembers Reordered xs ys → Reordered (f xs) (g ys)) (h : Reordered v w) :
    Reordered (bottomUp f v) (bottomUp g w) := by
  refine RebuildAlike.reordered ⟨fun _ hv => bottomUp_of_not_obj hv f,
    fun _ hv => bottomUp_of_not_obj hv g, ?_⟩ h
  intro xs ys _ hbelow
  rw [bottomUp, bottomUp, bottomUpKeywords_eq_mapSchemas, bottomUpKeywords_eq_mapSchemas]
  exact hfg _ _ hbelow

end SchemaForm.Schema
