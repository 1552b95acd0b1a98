import SchemaForm.Json.Basic

/-!
# Combinators

A schema with a list under `oneOf` or `anyOf` offers branches. `Combinator` is such an offer
together with the branch in force.
-/

namespace SchemaForm

/-- The keyword that offers branches. -/
inductive CombinatorKind where
  | oneOf
  | anyOf
deriving DecidableEq

/-- The keyword as it is written. -/
def CombinatorKind.keyword : CombinatorKind → String
  | oneOf => "oneOf"
  | anyOf => "anyOf"

/-- The keywords that offer branches. -/
def combinatorKeywords : List String := ["oneOf", "anyOf"]

/-- The branches that keywords offer; `oneOf` goes first. -/
def branches? (keywords : Fields) : Option (CombinatorKind × List Json) :=
  match Entries.get? "oneOf" keywords, Entries.get? "anyOf" keywords with
  | some (.arr options), _ => some (.oneOf, options)
  | _, some (.arr options) => some (.anyOf, options)
  | _, _ => none

/-- Branches and the one in force. -/
structure Combinator where
  kind : CombinatorKind
  options : List Json
  active : Option Nat
  labels : List String
  /-- More than one branch fits the data. -/
  ambiguous : Bool

namespace Combinator

/-- The label of a branch: its title, or its number counted from one. -/
def label (index : Nat) (option : Json) : String :=
  ((option.get? "title").bind Json.str?).getD ("Option " ++ toString (index + 1))

/-- The labels of all branches. -/
def labelsOf (options : List Json) : List String := options.mapIdx label

/-- The branch is chosen and not matched. -/
def pinned (kind : CombinatorKind) (options : List Json) (index : Nat) : Combinator :=
  ⟨kind, options, some index, labelsOf options, false⟩

/-- The positions of the branches that fit. -/
def fitting (fits : Json → Bool) (options : List Json) : List Nat :=
  (List.range options.length).filter fun i => (options[i]?.map fits).getD false

/-- The first branch that fits is in force. -/
def matched (kind : CombinatorKind) (options : List Json) (fits : Json → Bool) : Combinator :=
  let positions := fitting fits options
  ⟨kind, options, positions.head?, labelsOf options, 1 < positions.length⟩

/-- The combinator as an object. -/
def toJson (c : Combinator) : Json :=
  .obj [
    ("type", .str c.kind.keyword),
    ("options", .arr c.options),
    ("activeIndex", (c.active.map fun i => Json.int i).getD .null),
    ("labels", .arr (c.labels.map .str)),
    ("ambiguous", .bool c.ambiguous)]

end Combinator
end SchemaForm
