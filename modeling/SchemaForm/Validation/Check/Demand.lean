import SchemaForm.Regex.Parser
import SchemaForm.Schema.Reference
import SchemaForm.Validation.Check.Fragment

/-!
# Usable schemas

Before values can be checked, every pattern that can come to be used has to be a regular expression
and every reference has to name a place in the document. `demands` lists what a schema asks for by
itself; `usable` follows the references to all that it asks for.
-/

namespace SchemaForm.Validation

/-- White space and line ends: the characters of `\s`. -/
def blankSet : CharSet :=
  [' ', '\t', '\n', '\r', '\x0b', '\x0c', '\u2003', '\ufeff', '\u2029'].foldl
    (fun set c => .or set (.single c)) .none

/-- The dialect of patterns: the classes hold ASCII characters, and a few blanks beyond. -/
def asciiDialect : Regex.Dialect where
  lookaround := false
  digits := .range '0' '9'
  words := .or (.range 'A' 'Z') (.or (.range 'a' 'z') (.or (.range '0' '9') (.single '_')))
  blanks := blankSet

/-- The dialect of patterns that look ahead or behind: the classes go by Unicode property. -/
def lookDialect : Regex.Dialect := { Regex.Dialect.unicode with lookaround := true }

/-- The expression of a pattern. -/
def expression? (pattern : String) : Option Regex :=
  (Regex.parseIn? asciiDialect pattern).orElse fun _ => Regex.parseIn? lookDialect pattern

/-- Something that a schema asks for. -/
inductive Demand where
  /-- A place that a reference names. -/
  | target (reference : String)
  /-- A regular expression. -/
  | pattern (text : String)

/-- How a keyword holds schemas that values are checked against. The branches of a condition count
only with the condition, and the condition only with a branch. -/
def applied? (siblings : Fields) (keyword : String) : Option Schema.Holder :=
  match keyword with
  | "properties" | "patternProperties" | "dependentSchemas" => some .byName
  | "prefixItems" | "allOf" | "anyOf" | "oneOf" => some .list
  | "items" | "additionalProperties" | "contains" | "propertyNames" | "not" => some .single
  | "if" =>
    if Entries.contains "then" siblings || Entries.contains "else" siblings then some .single
    else none
  | "then" | "else" => if Entries.contains "if" siblings then some .single else none
  | _ => none

/-- What a keyword with a text asks for. -/
def textDemands (keyword text : String) : List Demand :=
  match keyword with
  | "$ref" => [.target text]
  | "pattern" => [.pattern text]
  | _ => []

mutual

/-- What a schema asks for by itself. -/
def demands : Json → List Demand
  | .obj keywords => keywordDemands keywords keywords
  | _ => []

/-- What keywords ask for. -/
def keywordDemands (siblings : Fields) : List (String × Json) → List Demand
  | [] => []
  | (keyword, .str text) :: rest => textDemands keyword text ++ keywordDemands siblings rest
  | (keyword, .obj entries) :: rest =>
    (match applied? siblings keyword with
      | some .byName =>
        (if keyword = "patternProperties" then entries.map fun entry => .pattern entry.1 else []) ++
          namedDemands entries
      | some .single => keywordDemands entries entries
      | _ => []) ++ keywordDemands siblings rest
  | (keyword, .arr items) :: rest =>
    (match applied? siblings keyword with
      | some .list => listedDemands items
      | _ => []) ++ keywordDemands siblings rest
  | _ :: rest => keywordDemands siblings rest

/-- What schemas held by name ask for. -/
def namedDemands : List (String × Json) → List Demand
  | [] => []
  | (_, v) :: rest => demands v ++ namedDemands rest

/-- What schemas held in a list ask for. -/
def listedDemands : List Json → List Demand
  | [] => []
  | v :: rest => demands v ++ listedDemands rest

end

/-- All demands are met, and so are those of the places they lead to. A reference is followed as
long as it is among the `available` ones, and then no more. -/
def met (document : Json) (available : List String) : List Demand → Bool
  | [] => true
  | .pattern text :: rest => (expression? text).isSome && met document available rest
  | .target reference :: rest =>
    if _h : reference ∈ available then
      match Schema.target? document reference with
      | some schema =>
        met document (Schema.others reference available) (demands schema ++ rest)
      | none => false
    else
      met document available rest
termination_by pending => (available.length, pending.length)
decreasing_by
  · exact Prod.Lex.right _ (by simp)
  · exact Prod.Lex.left _ _ (Schema.length_others_lt _h)
  · exact Prod.Lex.right _ (by simp)

/-- Everything that the document asks for is there. Every reference that can be met stands somewhere
in it, so at first all of those are available. -/
def usable (document : Json) : Bool :=
  met document (Schema.references document) (demands document)

end SchemaForm.Validation
