import SchemaDdl.Json.Value
import SchemaDdl.Script.Rule

/-!
# Adapted scripts

A rule cuts a script into characters that are kept and pieces that were found, which together are
the script; writing the replacement for every piece gives the new one. The rules of a dialect are
applied one after another, and each that finds something leaves a record.
-/

namespace SchemaDdl.Script

/-- A part of a script under a rule. -/
inductive Segment where
  | kept (char : Char)
  | found (text : List Char)
deriving DecidableEq, Repr

/-- The text of a segment. -/
def Segment.text : Segment → List Char
  | .kept char => [char]
  | .found text => text

def Segment.replaced (replacement : List Char) : Segment → List Char
  | .kept char => [char]
  | .found _ => replacement

def Segment.found? : Segment → Option (List Char)
  | .kept _ => none
  | .found text => some text

/-- The script after a character, cut into segments: at every place the thing that the pattern looks
for is found as a whole, or else a character is kept. -/
def segments (pattern : Pattern) : (previous : Option Char) → List Char → List Segment
  | _, [] => []
  | previous, char :: text =>
      match pattern.matchLength? previous (char :: text) with
      | some (length + 1) =>
          let found := char :: text.take length
          .found found :: segments pattern found.getLast? (text.drop length)
      | _ => .kept char :: segments pattern (some char) text
termination_by _ text => text.length

/-- What a rule changed in a script. -/
structure Change where
  rule : Rule
  /-- The pieces that were found, in the order of the script. -/
  found : List (List Char)
deriving DecidableEq, Repr

namespace Change

/-- The pieces that were found, each without the blanks around it and on a line of its own. -/
def foundText (change : Change) : String :=
  Text.join "\n" (change.found.map fun text => String.ofList (Text.trim text))

def encode (change : Change) : Json.Value :=
  .object
    [("rule", .string change.rule.code), ("description", .string change.rule.description),
      ("original", .string change.foundText),
      ("replacement", .string (Text.trimmed change.rule.replacement)),
      ("matches", Json.Value.ofNat change.found.length)]

end Change

/-- The pieces of a script that a rule finds. -/
def Rule.findings (rule : Rule) (script : List Char) : List (List Char) :=
  (segments rule.pattern none script).filterMap Segment.found?

/-- The script after a rule was applied to it. -/
def Rule.apply (rule : Rule) (script : List Char) : List Char :=
  (segments rule.pattern none script).flatMap (Segment.replaced rule.replacement.toList)

/-- A script as the rules so far left it, and what they changed in it. -/
structure Adaptation where
  script : List Char
  changes : List Change := []
deriving Repr

/-- One more rule applied to a script. -/
def Adaptation.apply (adaptation : Adaptation) (rule : Rule) : Adaptation :=
  match rule.findings adaptation.script with
  | [] => adaptation
  | found =>
      { script := rule.apply adaptation.script
        changes := adaptation.changes ++ [⟨rule, found⟩] }

/-- A script after all rules of a dialect. -/
def adapt (dialect : Dialect) (script : String) : Adaptation :=
  (rules dialect).foldl Adaptation.apply { script := script.toList }

/-- The adapted script as a string. -/
def Adaptation.text (adaptation : Adaptation) : String :=
  String.ofList adaptation.script

def Adaptation.differsFrom (adaptation : Adaptation) (script : String) : Bool :=
  adaptation.text != script

end SchemaDdl.Script
