import SchemaForm.Text.CharRanges
import SchemaForm.Text.Fold

/-!
# Regular expressions

An expression is matched by the set of places where a match that starts at a given place can end.
That set is found by recursion on the expression; a repetition adds places until it has run for as
many rounds as the text is long, after which no new place can appear. `Regex.search` asks whether
some match starts anywhere.
-/

namespace SchemaForm

/-- A set of characters. -/
inductive CharSet where
  | all
  | range (first last : Char)
  | property (ranges : Text.CharRanges)
  | not (set : CharSet)
  | or (left right : CharSet)
  | and (left right : CharSet)
  /-- Every character that has a case variant in the set. -/
  | folded (set : CharSet)

namespace CharSet

/-- The set without characters. -/
def none : CharSet := .not .all

/-- The set of one character. -/
def single (c : Char) : CharSet := .range c c

/-- Membership. -/
def contains : CharSet → Char → Bool
  | .all, _ => true
  | .range first last, c => first ≤ c && c ≤ last
  | .property ranges, c => ranges.contains c
  | .not set, c => !set.contains c
  | .or left right, c => left.contains c || right.contains c
  | .and left right, c => left.contains c && right.contains c
  | .folded set, c => (Text.caseVariants c).any set.contains

/-- The set without regard to case: the case variants are added before a complement is taken. -/
def ignoreCase : CharSet → CharSet
  | .not set => .not set.ignoreCase
  | .or left right => .or left.ignoreCase right.ignoreCase
  | .and left right => .and left.ignoreCase right.ignoreCase
  | set => .folded set

end CharSet

/-- A regular expression. -/
inductive Regex where
  | empty
  | char (set : CharSet)
  | textStart
  | textEnd
  | lineStart
  | lineEnd
  /-- A place between a word character and another character, or an end of the text. -/
  | wordBoundary
  | notWordBoundary
  | seq (first second : Regex)
  | alt (left right : Regex)
  /-- At least `least` times, and at most `most` times if there is a limit. -/
  | repeated (body : Regex) (least : Nat) (most : Option Nat)
  /-- The body matches ahead of (or behind) this place, or does not. Takes no characters. -/
  | look (ahead holds : Bool) (body : Regex)

namespace Regex

/-- Word characters. -/
def wordSet : CharSet := .property Text.wordRanges

/-- The character at a place is a word character. -/
def wordAt (text : Array Char) (i : Nat) : Bool := (text[i]?.map wordSet.contains).getD false

/-- A word starts or ends at the place. -/
def boundaryAt (text : Array Char) (i : Nat) : Bool :=
  (i != 0 && wordAt text (i - 1)) != wordAt text i

/-- Keeps a place if a condition holds. -/
def guardAt (holds : Bool) (i : Nat) : List Nat := if holds then [i] else []

/-- Applies a step a number of times. -/
def rounds (step : List Nat → List Nat) : Nat → List Nat → List Nat
  | 0, places => places
  | n + 1, places => rounds step n (step places)

/-- The places where a match that starts at `i` can end. -/
def ends (text : Array Char) : Regex → Nat → List Nat
  | .empty, i => [i]
  | .char set, i =>
    match text[i]? with
    | some c => guardAt (set.contains c) (i + 1)
    | none => []
  | .textStart, i => guardAt (i == 0) i
  | .textEnd, i => guardAt (i == text.size) i
  | .lineStart, i => guardAt (i == 0 || text[i - 1]? == some '\n') i
  | .lineEnd, i => guardAt (i == text.size || text[i]? == some '\n') i
  | .wordBoundary, i => guardAt (boundaryAt text i) i
  | .notWordBoundary, i => guardAt (!boundaryAt text i) i
  | .seq first second, i => ((ends text first i).flatMap (ends text second)).eraseDups
  | .alt left right, i => (ends text left i ++ ends text right i).eraseDups
  | .repeated body least most, i =>
    let step := fun places : List Nat => (places.flatMap (ends text body)).eraseDups
    let limit := text.size + 1
    let start := rounds step (min least limit) [i]
    let extra := match most with
      | some most => min (most - least) limit
      | none => limit
    rounds (fun places => (places ++ step places).eraseDups) extra start
  | .look true holds body, i => guardAt ((ends text body i).isEmpty != holds) i
  | .look false holds body, i =>
    let behind := (List.range (i + 1)).any fun j => (ends text body j).contains i
    guardAt (behind == holds) i

/-- Some part of the text matches. -/
def search (r : Regex) (text : String) : Bool :=
  let chars := text.toList.toArray
  (List.range (chars.size + 1)).any fun i => !(ends chars r i).isEmpty

end Regex
end SchemaForm
