import SchemaForm.Command.Selection

/-!
# Arguments

Reads the words of a command line into a `Request`. Words are read from left to right, and the
first mistake is the one reported. The value of an option is looked at when the next word is
taken up, so an unknown word behind it is reported before a bad value.
-/

namespace SchemaForm.Command

/-- Where a result goes, and in which form. -/
structure Output where
  /-- The file to write; without one the result is printed. -/
  file : Option String
  pretty : Bool

/-- What is asked for. -/
inductive Request where
  | version
  | help
  /-- The schema behind the static stages. -/
  | prepare (schema : String) (output : Output)
  /-- The form model, as a tree or with its index. -/
  | build (schema : String) (data : Option String) (selections : List (String × Nat))
      (validate index : Bool) (output : Output)

/-- What is wrong with a command line. -/
inductive UsageError where
  | malformed
  | selection (text : String) (error : SelectionError)

/-- The options of a command, with and without a value. -/
inductive CommandOption where
  | data
  | select
  | output
  | validate
  | index
  | pretty
deriving DecidableEq

namespace CommandOption

/-- The name of an option. -/
def name : CommandOption → String
  | data => "data"
  | select => "select"
  | output => "output"
  | validate => "validate"
  | index => "index"
  | pretty => "pretty"

/-- The option is followed by a value. -/
def takesValue : CommandOption → Bool
  | data | select | output => true
  | validate | index | pretty => false

end CommandOption

/-- The commands. -/
inductive Verb where
  | prepare
  | build
deriving DecidableEq

namespace Verb

/-- The name of a command. -/
def name : Verb → String
  | prepare => "prepare"
  | build => "build"

/-- The command with a name. -/
def ofName? (name : String) : Option Verb := [prepare, build].find? (·.name == name)

/-- The options that a command has. -/
def options : Verb → List CommandOption
  | prepare => [.output, .pretty]
  | build => [.data, .select, .validate, .index, .output, .pretty]

end Verb

/-- A word of a command line. -/
inductive Word where
  | plain (text : String)
  /-- A long option, and the value behind an equals sign. -/
  | long (name : String) (value : Option String)
  | short (letters : List Char)
  /-- What follows is plain, whatever it looks like. -/
  | endOfOptions

/-- The name of a long option and the value attached to it. -/
def splitLong (cs : List Char) : Word :=
  let name := String.ofList (cs.takeWhile (· != '='))
  match cs.dropWhile (· != '=') with
  | [] => .long name none
  | _ :: value => .long name (some (String.ofList value))

/-- What a word is by its looks. A lone hyphen is plain. -/
def Word.of (text : String) : Word :=
  match text.toList with
  | ['-', '-'] => .endOfOptions
  | '-' :: '-' :: cs => splitLong cs
  | ['-'] => .plain text
  | '-' :: letters => .short letters
  | _ => .plain text

/-- Why reading ends before the last word. -/
inductive Stop where
  | error (error : UsageError)
  | answer (request : Request)

/-- A place for a value that was given but not looked at yet. -/
inductive Slot where
  | schema
  | option (option : CommandOption)
deriving DecidableEq

/-- What has been read. -/
structure Reading where
  schema : Option String := none
  data : Option String := none
  output : Option String := none
  selections : List (String × Nat) := []
  flags : List CommandOption := []
  /-- The place that was named last, and its value. -/
  pending : Option (Slot × Option String) := none
  /-- Everything that follows is plain. -/
  plainOnly : Bool := false

namespace Reading

/-- The command line is malformed. -/
def malformed {α : Type} : Except Stop α := .error (.error .malformed)

/-- A path for a place that has none yet. -/
def path (place : Option String) (value : String) : Except Stop (Option String) :=
  if value.isEmpty || place.isSome then malformed else .ok (some value)

/-- Puts a value into its place. -/
def store (r : Reading) (slot : Slot) (value : String) : Except Stop Reading :=
  match slot with
  | .schema => return { r with schema := ← path r.schema value }
  | .option .data => return { r with data := ← path r.data value }
  | .option .output => return { r with output := ← path r.output value }
  | .option .select =>
    match parseSelection value with
    | .ok selection => .ok { r with selections := r.selections ++ [selection] }
    | .error e => .error (.error (.selection value e))
  | .option _ => malformed

/-- Looks at the value that was given last. -/
def settle (r : Reading) : Except Stop Reading :=
  match r.pending with
  | none => .ok r
  | some (slot, some value) => store { r with pending := none } slot value
  | some (_, none) => malformed

/-- An option without a value, which may be given once. -/
def flag (r : Reading) (option : CommandOption) : Except Stop Reading :=
  if r.flags.contains option then malformed else .ok { r with flags := option :: r.flags }

/-- A long option. -/
def long (verb : Verb) (r : Reading) (name : String) (value : Option String) :
    Except Stop Reading :=
  match verb.options.find? (·.name == name), value with
  | some option, value =>
    if option.takesValue then do
      let r ← r.settle
      match value with
      | some value => store r (.option option) value
      | none => return { r with pending := some (.option option, none) }
    else if value.isSome then
      malformed
    else do
      (← r.settle).flag option
  | none, none => if name = "help" then do let _ ← r.settle; .error (.answer .help) else malformed
  | none, some _ => malformed

/-- A plain word: the value that an option waits for, or else the schema. -/
def plain (r : Reading) (text : String) : Except Stop Reading :=
  match r.plainOnly, r.pending with
  | false, some (slot, none) => .ok { r with pending := some (slot, some text) }
  | _, pending =>
    if r.schema.isSome || (pending.any fun p => p.1 = .schema) then malformed
    else do return { (← r.settle) with pending := some (.schema, some text) }

/-- Reads one word. -/
def word (verb : Verb) (r : Reading) (text : String) : Except Stop Reading :=
  if r.plainOnly then r.plain text
  else
    match Word.of text with
    | .plain text => r.plain text
    | .endOfOptions => .ok { r with plainOnly := true }
    | .long name value => r.long verb name value
    | .short ('h' :: _) => do let _ ← r.settle; .error (.answer .help)
    | .short _ => malformed

/-- The request that was read; the schema has to be there. -/
def request (verb : Verb) (r : Reading) : Except Stop Request := do
  let r ← r.settle
  let output := Output.mk r.output (r.flags.contains .pretty)
  match verb, r.schema with
  | _, none => malformed
  | .prepare, some schema => return .prepare schema output
  | .build, some schema =>
    return .build schema r.data r.selections (r.flags.contains .validate) (r.flags.contains .index)
      output

end Reading

/-- Reads the words behind the name of a command. -/
def parseVerb (verb : Verb) (words : List String) : Except Stop Request := do
  (← words.foldlM (Reading.word verb) {}).request verb

/-- Help can be asked for about the word. -/
def isTopic (word : String) : Bool := word == "help" || (Verb.ofName? word).isSome

/-- Reads the words behind the program's name. -/
def parseWords : List String → Except Stop Request
  | [] => Reading.malformed
  | first :: rest =>
    match Verb.ofName? first, Word.of first with
    | some verb, _ => parseVerb verb rest
    | none, .long "version" none | none, .short ('V' :: _) => .ok .version
    | none, .long "help" none | none, .short ('h' :: _) => .ok .help
    | none, .plain "help" =>
      if rest.length ≤ 1 && rest.all isTopic then .ok .help else Reading.malformed
    | _, _ => Reading.malformed

/-- The request that a command line makes. -/
def parse (words : List String) : Except UsageError Request :=
  match parseWords words with
  | .ok request => .ok request
  | .error (.answer request) => .ok request
  | .error (.error e) => .error e

end SchemaForm.Command
