import SchemaForm.Proofs.Pipeline.Rebuild

/-!
# Present data under defaults

Seeding follows the data down the children of each field. A scalar on its way stays as it is, unless
a field that serves members holds present data that are no object: those give way to an object, and
what stood below them is lost. Otherwise present data win over defaults.
-/

namespace SchemaForm

namespace Defaults

open Json FieldTree

variable {index : FieldIndex} {path : String}

/-- The field puts an object in the place of present data. -/
def replaces (node : FieldNode) (v : Json) : Bool := servesMembers node && !v.isObj

/-- The child whose seeding meets what stands at a segment of the data. -/
def metBy? (node : FieldNode) (path segment : String) (v : Json) : Option String :=
  if servesMembers node then
    if Pointer.append path segment ∈ node.children then some (Pointer.append path segment) else none
  else
    (servedElements? node (some v)).bind fun _ => (Pointer.index? segment).bind fun i =>
      node.children[i]?

/-- The first field on the way down that replaces its data, with the segments left from there. -/
def replaced? (index : FieldIndex) : List String → String → Json → Option (String × List String)
  | [], path, v =>
    (index.get? path).bind fun node => if replaces node v then some (path, []) else none
  | segment :: rest, path, v =>
    (index.get? path).bind fun node =>
      if replaces node v then some (path, segment :: rest)
      else (child? segment v).bind fun inner => (metBy? node path segment v).bind fun child =>
        replaced? index rest child inner

/-- A field that replaces its data treats them like an empty object. -/
theorem fill_of_replaces (h : Nested index) {node : FieldNode}
    (hnode : index.get? path = some node) {v : Json} (hreplaces : replaces node v = true) :
    fill index path (some v) = fill index path (some .empty) := by
  obtain ⟨hmembers, hobj⟩ := Bool.and_eq_true_iff.1 hreplaces
  have hnone : Schema.membersOf (given node (some v)) = [] := by
    cases v with
    | obj fields => cases hobj
    | _ => rfl
  rw [fill_of_some h hnode, fill_of_some h hnode, seedField_of_members hmembers,
    seedField_of_members hmembers, hnone]
  rfl

theorem fill_scalar (h : Nested index) {node : FieldNode} (hnode : index.get? path = some node)
    {v : Json} (hreplaces : replaces node v = false) (hobj : v.isObj = false)
    (harr : v.isArr = false) : (fill index path (some v)).result = some v := by
  have hmembers : servesMembers node = false := by
    unfold replaces at hreplaces
    rw [hobj, Bool.not_false, Bool.and_true] at hreplaces
    exact hreplaces
  have helements : servedElements? node (some v) = none := by
    unfold servedElements?
    split
    · cases v with
      | arr items => cases harr
      | _ => rfl
    · rfl
  rw [fill_of_some h hnode, seedField_of_kept hmembers helements]
  rfl

/-- One segment down stands what seeding by the child that meets the data makes of them, and without
such a child the data as they are. -/
theorem child?_fill (h : Nested index) {node : FieldNode} (hnode : index.get? path = some node)
    {v inner : Json} (hreplaces : replaces node v = false) {segment : String}
    (hinner : child? segment v = some inner) :
    (fill index path (some v)).result.bind (child? segment) =
      match metBy? node path segment v with
      | some child => (fill index child (some inner)).result
      | none => some inner := by
  unfold metBy?
  cases hmembers : servesMembers node with
  | true =>
    have hobj : v.isObj = true := by
      unfold replaces at hreplaces
      rw [hmembers, Bool.true_and, Bool.not_eq_false'] at hreplaces
      exact hreplaces
    obtain ⟨fields, rfl⟩ : ∃ fields, v = .obj fields := by
      cases v with
      | obj fields => exact ⟨fields, rfl⟩
      | _ => cases hobj
    have hget : Entries.get? segment (Schema.membersOf (given node (some (.obj fields)))) =
        some inner := hinner
    rw [if_pos rfl]
    by_cases hchild : Pointer.append path segment ∈ node.children
    · rw [if_pos hchild, child?_fill_of_mem h hnode hmembers hchild, hget]
    · rw [if_neg hchild, child?_fill_of_notMem h hnode hmembers hchild, hget]
  | false =>
    rw [if_neg Bool.false_ne_true]
    cases helements : servedElements? node (some v) with
    | none =>
      rw [fill_of_some h hnode, seedField_of_kept hmembers helements]
      exact hinner
    | some items =>
      obtain rfl : v = .arr items := by
        unfold servedElements? at helements
        split at helements
        · cases v <;> cases helements
          rfl
        · cases helements
      obtain ⟨i, hindex, hitem⟩ := Option.bind_eq_some_iff.1 hinner
      rw [child?_fill_of_element h hnode hmembers helements hindex, hitem, hindex]
      rfl

/-- What stands after seeding where a scalar stood before. -/
theorem atSegments?_fill (h : Nested index) {v : Json} (hobj : v.isObj = false)
    (harr : v.isArr = false) {segments : List String} {d : Json}
    (hpresent : atSegments? (some d) segments = some v) :
    atSegments? (fill index path (some d)).result segments =
      match replaced? index segments path d with
      | some (field, rest) => atSegments? (fill index field (some .empty)).result rest
      | none => some v := by
  induction segments generalizing path d with
  | nil =>
    cases hpresent
    unfold replaced?
    cases hnode : index.get? path with
    | none =>
      rw [fill_of_none hnode]
      rfl
    | some node =>
      rw [Option.bind_some]
      cases hreplaces : replaces node v with
      | true =>
        rw [fill_of_replaces h hnode hreplaces]
        rfl
      | false => exact fill_scalar h hnode hreplaces hobj harr
  | cons segment rest ih =>
    unfold replaced?
    cases hnode : index.get? path with
    | none =>
      rw [fill_of_none hnode]
      exact hpresent
    | some node =>
      rw [Option.bind_some]
      cases hreplaces : replaces node d with
      | true =>
        rw [fill_of_replaces h hnode hreplaces]
        rfl
      | false =>
        obtain ⟨inner, hinner, hrest⟩ := exists_child_of_atSegments? hpresent
        rw [atSegments?_cons, child?_fill h hnode hreplaces hinner, hinner,
          if_neg Bool.false_ne_true, Option.bind_some]
        cases metBy? node path segment d with
        | none => exact hrest
        | some child => exact ih hrest

end Defaults

namespace Pipeline

open Defaults FieldTree Json

/-- A present scalar wins over defaults as long as no field on its way replaces its data by an
object; below such a field stands what an empty object gets there. -/
theorem present_scalar_wins_unless_replaced [Patterns] (schema d v : Json) (selections : Selections)
    {pointer : String} {segments : List String} (hparse : Pointer.parse pointer = .ok segments)
    (hobj : v.isObj = false) (harr : v.isArr = false)
    (hpresent : getAt (some d) pointer = .ok (some v)) :
    ∃ m, run .default schema (some d) selections = .ok m ∧
      (replaced? m.index segments "" d = none → getAt m.data pointer = .ok (some v)) ∧
      ∀ field rest, replaced? m.index segments "" d = some (field, rest) →
        getAt m.data pointer =
          .ok (atSegments? (fill m.index field (some .empty)).result rest) := by
  refine ⟨_, run_default schema (some d) selections, ?_⟩
  have hform := sameForm_plainModel (Schema.prepare schema) (some d) selections
  have hnested := hform.nested (nested_plainIndex (Schema.prepare schema) (some d) selections)
  rw [getAt_of_parse hparse] at hpresent ⊢
  rw [data_plainModel, ← hform.fill_eq,
    atSegments?_fill hnested hobj harr (Except.ok.inj hpresent)]
  constructor
  · intro hreplaced
    rw [hreplaced]
  · intro field rest hreplaced
    rw [hreplaced]

/-- Null is not absent: a default does not take its place. -/
theorem present_scalar_wins_unless_replaced_null :
    ∃ m, run .default defaultAlone (some .null) .empty = .ok m ∧
      getAt m.data "" = .ok (some .null) := by
  obtain ⟨m, hrun, hkept, -⟩ := present_scalar_wins_unless_replaced defaultAlone .null .null .empty
    (rfl : Pointer.parse "" = .ok []) rfl rfl rfl
  refine ⟨m, hrun, hkept ?_⟩
  obtain rfl := eq_plainModel_of_run prepare_defaultAlone hrun
  obtain ⟨value, hroot⟩ := exists_get?_plainModel
    (plainIndex_defaultAlone (rfl : (some Json.null).bind items? = none))
  unfold replaced?
  rw [hroot]
  rfl

/-! ### A null that gives way to an object -/

/-- An object with one property, or null. -/
def nullableObject : Json :=
  .obj [("type", .arr [.str "object", .str "null"]), ("properties", .obj [("a", .empty)])]

theorem prepare_nullableObject : Schema.prepare nullableObject = nullableObject :=
  prepare_eq_self rfl rfl rfl rfl

theorem situated_nullableObject [Patterns] (data : Option Json) :
    situated nullableObject data = nullableObject :=
  situated_of_isFixed rfl data

theorem children_nullableObject :
    (below .empty nullableObject (some .null) "").1 = ["/a"] := by
  have hitems : itemsBelow .empty nullableObject (some .null) "" = ([], []) := ite_self _
  rw [below_of_no_branches rfl, hitems]
  show (belowProperties _ _ _ _ _).1 ++ [] = _
  rw [children_belowProperties]
  rfl

/-- Null is accepted data for the field, but the model holds an object without members. -/
theorem null_gives_way_to_object :
    ∃ m, run .default nullableObject (some .null) .empty = .ok m ∧
      getAt (some .null) "" = .ok (some .null) ∧ getAt m.data "" ≠ .ok (some .null) := by
  refine ⟨_, run_default _ (some .null) .empty, rfl, ?_⟩
  have hroot : (plainIndex nullableObject (some .null) .empty).get? "" =
      some (node .empty nullableObject (some .null) "" .root false ["/a"]) := by
    show (build .empty (situated nullableObject _) _).get? "" = _
    rw [situated_nullableObject, get?_build_root, children_nullableObject]
  have hmembers : servesMembers
      (node .empty nullableObject (some .null) "" .root false ["/a"]) = true := by decide
  rw [prepare_nullableObject, data_plainModel, fill_of_some (nested_plainIndex _ _ _) hroot,
    seedField_of_members hmembers]
  intro h
  cases h

end Pipeline
end SchemaForm
