import SchemaForm.Command.Arguments
import SchemaForm.Document
import SchemaForm.Pipeline.Run
import SchemaForm.Regex.Engine
import SchemaForm.Validation.Annotate
import SchemaForm.Validation.Check

/-!
# Performing requests

What a request comes to, given what the files hold: a text to print, a file to write, or a failure.
`Command.run` goes from the words of a command line to that outcome.
-/

namespace SchemaForm.Command

/-- What a command line comes to. -/
inductive Outcome where
  /-- Prints a line. -/
  | print (line : String)
  /-- Writes a file. -/
  | write (path text : String)
  /-- Reports an error and ends with an exit code. -/
  | fail (message : String) (exitCode : Nat)

/-- The name of the program and its version. -/
def versionText : String := "formica 0.4.0"

/-- How the program is used. -/
def usageText : String :=
  "Usage: formica prepare <SCHEMA> [--output <OUTPUT>] [--pretty]\n" ++
  "       formica build <SCHEMA> [--data <DATA>] [--select <SELECTIONS>]... [--validate]\n" ++
  "                     [--index] [--output <OUTPUT>] [--pretty]\n" ++
  "       formica --version"

/-- The wording for a wrong command line. -/
def UsageError.message : UsageError → String
  | malformed => "error: invalid arguments\n\n" ++ usageText
  | selection text error =>
    "error: invalid value '" ++ text ++ "' for '--select <SELECTIONS>': " ++ error.message

/-- The exit code for a wrong command line. -/
def UsageError.exitCode : UsageError → Nat := fun _ => 2

/-- The failure to write a file. -/
def writeFailure (path reason : String) : Outcome :=
  .fail ("Error writing to " ++ path ++ ": " ++ reason) 3

/-- Delivers a value in the form that was asked for. -/
def deliver (output : Output) (v : Json) : Outcome :=
  let text := if output.pretty then v.pretty else v.text
  match output.file with
  | some path => .write path text
  | none => .print text

/-- Goes on with a loaded document. -/
def withDocument (lead path : String) (content : FileContent) (next : Json → Outcome) : Outcome :=
  match Document.load path content with
  | .ok v => next v
  | .error e => .fail (lead ++ ": " ++ e.message) e.exitCode

/-- Goes on with the outcome of a run. -/
def withResult {α : Type} (t : Traced α) (next : α → Outcome) : Outcome :=
  match t.result with
  | .ok a => next a
  | .error e => .fail ("Error: " ++ e.message) e.exitCode

/-- How models are built for a request. -/
def config (validate : Bool) : Config :=
  { Config.default with
    enrichments := if validate then [Validation.enrichment Validation.validator] else [] }

/-- The model of a schema and data, with these branches pinned; of two for one path the later one
counts. -/
def buildModel (schema : Json) (data : Option Json) (selections : List (String × Nat))
    (validate index : Bool) (output : Output) : Outcome :=
  withResult (Pipeline.run (config validate) schema data (SortedMap.ofList selections)) fun m =>
    deliver output (if index then m.toJson else m.treeJson)

/-- What a request comes to. -/
def perform (content : String → FileContent) : Request → Outcome
  | .version => .print versionText
  | .help => .print usageText
  | .prepare schema output =>
    withDocument "Error" schema (content schema) fun schema =>
      withResult (Pipeline.prepare Config.default schema) fun prepared =>
        deliver output prepared.schema
  | .build schema data selections validate index output =>
    withDocument "Error" schema (content schema) fun schema =>
      match data with
      | none => buildModel schema none selections validate index output
      | some data =>
        withDocument "Error loading data" data (content data) fun data =>
          buildModel schema (some data) selections validate index output

/-- The files that a request reads. -/
def Request.inputs : Request → List String
  | version | help => []
  | prepare schema _ => [schema]
  | build schema data _ _ _ _ => schema :: data.toList

/-- What a command line comes to. -/
def run (content : String → FileContent) (words : List String) : Outcome :=
  match parse words with
  | .ok request => perform content request
  | .error e => .fail e.message e.exitCode

end SchemaForm.Command
