import SchemaForm.Pipeline.Model

/-!
# What an edit touches

An edit at a path touches the path, everything above it, and the fields whose conditionals read the
path. A subscriber is affected if its path is touched or lies above a touched one; whether the field
there really changed is decided on the two models.
-/

namespace SchemaForm

/-- The pointers of the first `0 … n` of `n` segments. -/
def Pointer.ofPrefixes (segments : List String) : List String :=
  (List.range (segments.length + 1)).map fun n => Pointer.build (segments.take n)

namespace Dirty

/-- The paths that an edit touches. -/
def paths (changed : String) (deps : ConditionalDeps) : Except PathError SortedSet := do
  let segments ← Pointer.parse changed
  let dependents := ((SortedMap.get? changed deps).map SortedSet.toList).getD []
  return SortedSet.ofList (changed :: Pointer.ofPrefixes segments.dropLast ++ dependents)

/-- The path is touched, or something below it is. -/
def affects (path : String) (dirty : SortedSet) : Bool :=
  dirty.has path || dirty.toList.any (Pointer.isDescendant path)

/-- The data are the same: both absent, or identical values. -/
def sameData : Option Json → Option Json → Bool
  | none, none => true
  | some a, some b => a.identical b
  | _, _ => false

/-- A subscriber sees a difference between the field as it was and as it is. -/
def differs (before : Option FieldNode) (after : FieldNode) : Bool :=
  match before with
  | none => true
  | some before =>
    !sameData before.value after.value || before.children.length != after.children.length ||
      before.active != after.active || before.required != after.required ||
      before.activeBranch? != after.activeBranch?

end Dirty
end SchemaForm
