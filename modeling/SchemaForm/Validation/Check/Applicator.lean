import SchemaForm.Validation.Check.Assertion
import SchemaForm.Validation.Issue

/-!
# Applicators

The keywords that check a value, or parts of it, against other schemas. Each is a function of
`check`, which stands for checking against a schema in full. Issues come in the order in which a
keyword visits the parts: declared members in the order of the declaration, elements by number.
-/

namespace SchemaForm.Validation

/-- A value with the pointer to it. -/
structure Place where
  path : String
  value : Json

namespace Place

/-- The place of a member. -/
def member (place : Place) (entry : String × Json) : Place :=
  ⟨Pointer.append place.path entry.1, entry.2⟩

/-- The place of an element. -/
def element (place : Place) (entry : Json × Nat) : Place :=
  ⟨Pointer.appendIndex place.path entry.2, entry.1⟩

/-- An issue of the value. -/
def issue (place : Place) (fault : Fault) : Issue := ⟨place.path, fault.message place.value.text⟩

/-- The members of the value, if it is an object. -/
def fields (place : Place) : Fields := place.value.fields?.getD []

/-- The elements of the value with their numbers, if it is an array. -/
def elements (place : Place) : List (Json × Nat) := (place.value.items?.getD []).zipIdx

end Place

/-- The issues of a value under a schema. -/
abbrev Check := Json → Place → List Issue

/-- An issue of the value if a rule is broken. -/
def issueIf (broken : Bool) (fault : Fault) (place : Place) : List Issue :=
  (faultIf broken fault).map place.issue

/-- `properties`: the members that are declared, in the order of the declaration. -/
def propertyIssues (check : Check) (properties : Fields) (place : Place) : List Issue :=
  properties.flatMap fun entry =>
    match place.value.get? entry.1 with
    | some v => check entry.2 (place.member (entry.1, v))
    | none => []

/-- `patternProperties`: the members whose names match, pattern by pattern. -/
def patternIssues (check : Check) (patterns : Fields) (place : Place) : List Issue :=
  patterns.flatMap fun entry =>
    (place.fields.filter fun field => matchesPattern entry.1 field.1).flatMap fun field =>
      check entry.2 (place.member field)

/-- `additionalProperties` restricts members, and then also checks the declared ones. -/
def restricts (siblings : Fields) : Bool :=
  match Entries.get? "additionalProperties" siblings with
  | some (.bool false) | some (.obj _) => true
  | _ => false

/-- The schemas declared for a name: the one under `properties`, then those whose pattern it
matches. -/
def declaredFor (siblings : Fields) (name : String) : List Json :=
  ((Entries.get? "properties" siblings).bind (Json.get? name)).toList ++
    (((Entries.get? "patternProperties" siblings).bind Json.fields?).getD []).filterMap fun entry =>
      if matchesPattern entry.1 name then some entry.2 else none

/-- The members that nothing declares are not allowed. With no declarations at all, the first
member is refused as by the false schema; otherwise one issue names them all. -/
def unexpectedIssues (siblings : Fields) (place : Place) : List Issue :=
  match place.fields.filter fun field => (declaredFor siblings field.1).isEmpty with
  | [] => []
  | first :: rest =>
    if Entries.contains "properties" siblings || Entries.contains "patternProperties" siblings then
      [place.issue (.unexpected ((first :: rest).map Prod.fst))]
    else
      [⟨place.path, Fault.falseSchema.message first.2.text⟩]

/-- `additionalProperties`: member by member, under the schemas declared for it or else under the
schema of this keyword. -/
def additionalIssues (check : Check) (siblings : Fields) (additional : Json) (place : Place) :
    List Issue :=
  let memberIssues := place.fields.flatMap fun field =>
    match declaredFor siblings field.1, additional with
    | [], .obj schema => check (.obj schema) (place.member field)
    | schemas, _ => schemas.flatMap fun schema => check schema (place.member field)
  match additional with
  | .bool false => memberIssues ++ unexpectedIssues siblings place
  | .obj _ => memberIssues
  | _ => []

/-- `propertyNames`: the names as texts; the issues are those of the object. -/
def nameIssues (check : Check) (schema : Json) (place : Place) : List Issue :=
  match schema with
  | .bool false => issueIf (!place.fields.isEmpty) .falseSchema place
  | schema =>
    place.fields.flatMap fun field =>
      (check schema ⟨place.path, .str field.1⟩).map fun issue => { issue with path := place.path }

/-- `prefixItems`: each element under the schema of the same number. -/
def prefixIssues (check : Check) (schemas : List Json) (place : Place) : List Issue :=
  (schemas.zip place.elements).flatMap fun pair => check pair.1 (place.element pair.2)

/-- `items`: the elements behind those that `prefixItems` covers. -/
def itemIssues (check : Check) (siblings : Fields) (schema : Json) (place : Place) : List Issue :=
  let covered := ((Entries.get? "prefixItems" siblings).bind Json.items?).getD []
  (place.elements.drop covered.length).flatMap fun element => check schema (place.element element)

/-- `contains`: enough elements, and not too many, fit the schema. -/
def containsIssues (check : Check) (siblings : Fields) (schema : Json) (place : Place) :
    List Issue :=
  if place.value.isArr then
    let fitting := place.elements.countP fun element =>
      (check schema (place.element element)).isEmpty
    let limit? := fun keyword : String => (Entries.get? keyword siblings).bind count?
    let tooFew := fitting < (limit? "minContains").getD 1
    let tooMany := (limit? "maxContains").any fun most => most < fitting
    issueIf (tooFew || tooMany) .wrongContents place
  else
    []

/-- `oneOf`: exactly one branch accepts the value. -/
def oneOfIssues (check : Check) (branches : List Json) (place : Place) : List Issue :=
  match branches.countP fun schema => (check schema place).isEmpty with
  | 0 => [place.issue (.noBranch "oneOf")]
  | 1 => []
  | _ => [place.issue .severalBranches]

/-- `anyOf`: at least one branch accepts the value. -/
def anyOfIssues (check : Check) (branches : List Json) (place : Place) : List Issue :=
  issueIf (!branches.any fun schema => (check schema place).isEmpty) (.noBranch "anyOf") place

/-- `if`: the branch that the condition chooses. -/
def conditionIssues (check : Check) (siblings : Fields) (condition : Json) (place : Place) :
    List Issue :=
  let branch := if (check condition place).isEmpty then "then" else "else"
  ((Entries.get? branch siblings).map fun schema => check schema place).getD []

/-- `dependentSchemas`: the schemas whose trigger is a key of the object. -/
def dependentIssues (check : Check) (entries : Fields) (place : Place) : List Issue :=
  (entries.filter fun entry => Entries.contains entry.1 place.fields).flatMap fun entry =>
    check entry.2 place

/-- The issues of a value under one keyword of a schema with these siblings, where references lead
into `document`. -/
def keywordIssues (check : Check) (document : Json) (siblings : Fields) (keyword : String)
    (limit : Json) (place : Place) : List Issue :=
  match keyword, limit with
  | "$ref", .str reference =>
    ((Schema.target? document reference).map fun schema => check schema place).getD []
  | "properties", .obj properties =>
    if restricts siblings then [] else propertyIssues check properties place
  | "patternProperties", .obj patterns =>
    if restricts siblings then [] else patternIssues check patterns place
  | "additionalProperties", additional => additionalIssues check siblings additional place
  | "propertyNames", schema => nameIssues check schema place
  | "prefixItems", .arr schemas => prefixIssues check schemas place
  | "items", schema => itemIssues check siblings schema place
  | "contains", schema => containsIssues check siblings schema place
  | "allOf", .arr schemas => schemas.flatMap fun schema => check schema place
  | "anyOf", .arr branches => anyOfIssues check branches place
  | "oneOf", .arr branches => oneOfIssues check branches place
  | "not", schema => issueIf (check schema place).isEmpty (.excluded schema) place
  | "if", condition => conditionIssues check siblings condition place
  | "dependentSchemas", .obj entries => dependentIssues check entries place
  | keyword, limit => (faults keyword limit place.value).map place.issue

end SchemaForm.Validation
