import SchemaForm.Regex.Token

/-!
# Reading regular expressions

Builds an expression from its tokens with one frame per open group. A text that is no expression
of the dialect is refused as a whole: a quantifier with nothing to repeat, an unbalanced
parenthesis, two groups of one name, or a text without tokens.
-/

namespace SchemaForm.Regex

namespace Parser

/-- A group that is being read: the flags to return to behind it, the finished branches, and the
parts of the current branch, last first. -/
structure Frame where
  group : Group
  outer : Flags
  branches : List Regex
  parts : List Regex

/-- Everything read so far. -/
structure State where
  frame : Frame
  enclosing : List Frame
  flags : Flags
  /-- The last thing read can be repeated. -/
  repeatable : Bool
  names : List String

/-- Nothing read yet. -/
def State.start : State := ⟨⟨.plain, {}, [], []⟩, [], {}, false, []⟩

/-- The parts of a branch in order. -/
def sequence (parts : List Regex) : Regex :=
  parts.foldl (fun acc part => .seq part acc) .empty

/-- The expression of a frame. -/
def Frame.expression (frame : Frame) : Regex :=
  frame.branches.foldl (fun acc branch => .alt branch acc) (sequence frame.parts)

/-- Sets the switches that a flag group names. -/
def applySwitches (flags : Flags) (switches : List (Char × Bool)) : Flags :=
  switches.foldl (fun flags switch =>
    match switch with
    | ('i', on) => { flags with ignoreCase := on }
    | ('m', on) => { flags with multiLine := on }
    | ('s', on) => { flags with dotAll := on }
    | _ => flags) flags

/-- Adds one part to the current branch. -/
def State.push (state : State) (part : Regex) : State :=
  { state with
    frame := { state.frame with parts := part :: state.frame.parts }
    repeatable := true }

/-- Opens a group. -/
def State.enter (state : State) (group : Group) (flags : Flags) : State :=
  { state with
    frame := ⟨group, state.flags, [], []⟩
    enclosing := state.frame :: state.enclosing
    flags
    repeatable := false }

/-- The expression of a finished group. -/
def closed (frame : Frame) : Regex :=
  match frame.group with
  | .look ahead holds => .look ahead holds frame.expression
  | _ => frame.expression

/-- Reads one token. -/
def State.step (state : State) : Token → Option State
  | .chars set =>
    some (state.push (.char (if state.flags.ignoreCase then set.ignoreCase else set)))
  | .dot => some (state.push (.char (if state.flags.dotAll then .all else .not (.single '\n'))))
  | .caret => some (state.push (if state.flags.multiLine then .lineStart else .textStart))
  | .dollar => some (state.push (if state.flags.multiLine then .lineEnd else .textEnd))
  | .assertion r => some (state.push r)
  | .bar =>
    some { state with
      frame := { state.frame with
        branches := sequence state.frame.parts :: state.frame.branches
        parts := [] }
      repeatable := false }
  | .quantifier least most =>
    match state.repeatable, state.frame.parts with
    | true, last :: parts =>
      some { state with frame := { state.frame with parts := .repeated last least most :: parts } }
    | _, _ => none
  | .flags switches =>
    some { state with flags := applySwitches state.flags switches, repeatable := false }
  | .openGroup (.withFlags switches) =>
    some (state.enter .plain (applySwitches state.flags switches))
  | .openGroup (.named name) =>
    if state.names.contains name then none
    else some { state.enter .plain state.flags with names := name :: state.names }
  | .openGroup group => some (state.enter group state.flags)
  | .closeGroup =>
    match state.enclosing with
    | [] => none
    | outer :: enclosing =>
      let finished := state.frame
      some (State.push { state with frame := outer, enclosing, flags := finished.outer }
        (closed finished))

/-- The expression of a finished state: every group is closed. -/
def State.finish? (state : State) : Option Regex :=
  if state.enclosing.isEmpty then some state.frame.expression else none

/-- Reads all tokens. -/
def run? (tokens : List Token) : Option Regex := do
  (← tokens.foldlM State.step State.start).finish?

end Parser

/-- The expression that a text stands for in a dialect. -/
def parseIn? (dialect : Dialect) (text : String) : Option Regex := do
  Parser.run? (← Token.list? dialect text.toList)

/-- The expression that a text stands for. -/
def parse? (text : String) : Option Regex := parseIn? .unicode text

end SchemaForm.Regex
