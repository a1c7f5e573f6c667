import SchemaDdl.Text.Phrase

/-!
# Patterns of scripts

What a rule looks for in a script. Patterns for statements begin at the start of a line and take in
the statement, its semicolon and the rest of a line that holds nothing else; the others may stand
anywhere between words. All functions named `after` give what follows the thing that was found.
-/

namespace SchemaDdl.Script

open Text

/-- What the rest of a statement must be like, after the phrase it begins with. -/
inductive Demand where
  | anything
  /-- One of the phrases stands in it, with a blank after the phrase. -/
  | holds (phrases : List Phrase)
  /-- It begins with a blank and ends with one of the phrases. -/
  | endsWith (phrases : List Phrase)
deriving DecidableEq, Repr

/-- What to look for in a script. -/
inductive Pattern where
  /-- A statement that begins with one of the phrases, up to its first semicolon. -/
  | statement (heads : List Phrase) (demand : Demand)
  /-- A statement that is one of the phrases and nothing else. -/
  | sentence (phrases : List Phrase)
  /-- A statement that begins with one of the phrases and has a quoted body, up to the semicolon
  after the body. -/
  | definition (heads : List Phrase)
  /-- A phrase. -/
  | phrase (words : Phrase)
  /-- A call without arguments. -/
  | call (function : String)
deriving DecidableEq, Repr

/-! ## Lines and statements -/

def lineBegins (previous : Option Char) : Bool :=
  previous.all (· == '\n')

def isIndent (char : Char) : Bool :=
  char == ' ' || char == '\t'

/-- What follows the end of a line, when only blanks come before it; else what follows the
blanks. -/
def afterLineEnd (text : List Char) : List Char :=
  match text.dropWhile isIndent with
  | '\r' :: '\n' :: rest => rest
  | '\n' :: rest => rest
  | rest => rest

/-- What follows the first phrase that a line begins with, as a whole word. -/
def afterHead? (heads : List Phrase) (text : List Char) : Option (List Char) :=
  afterAnyPhrase? wordEnds heads (text.dropWhile isIndent)

def Demand.accepts : Demand → List Char → Bool
  | .anything, _ => true
  | .holds phrases, text =>
      (afterFirst? (fun rest => (afterBlanks? rest).isSome) phrases none text).isSome
  | .endsWith phrases, text =>
      (afterBlanks? text).isSome
        && (afterFirst? (fun rest => rest.all isBlank) phrases none text).isSome

def afterStatement? (heads : List Phrase) (demand : Demand) (text : List Char) :
    Option (List Char) :=
  ((afterHead? heads text).bind (splitFirst ';')).bind fun (inside, rest) =>
    if demand.accepts inside then some (afterLineEnd rest) else none

def afterSentence? (phrases : List Phrase) (text : List Char) : Option (List Char) :=
  (splitFirst ';' (text.dropWhile isIndent)).bind fun (inside, rest) =>
    if (afterAnyPhrase? (fun rest => rest.all isBlank) phrases inside).isSome then
      some (afterLineEnd rest)
    else
      none

/-! ## Quoted bodies -/

def isTagStart (char : Char) : Bool :=
  char.isAlpha || char == '_'

def isTagPart (char : Char) : Bool :=
  char.isAlphanum || char == '_'

/-- The dollar tag that the text begins with, and what follows it: two dollar signs, with a name or
nothing between them. -/
def dollarTag? : List Char → Option (List Char × List Char)
  | '$' :: text =>
      let name := text.takeWhile isTagPart
      match text.dropWhile isTagPart with
      | '$' :: rest =>
          if name.head?.all isTagStart then some ('$' :: (name ++ ['$']), rest) else none
      | _ => none
  | _ => none

def afterOccurrence? (needle : List Char) : List Char → Option (List Char)
  | [] => after? needle []
  | char :: text => (after? needle (char :: text)).or (afterOccurrence? needle text)

/-- What follows the quote that closes a quoted text; a doubled quote stands for one. -/
def afterClosingQuote? : List Char → Option (List Char)
  | [] => none
  | '\'' :: '\'' :: text => afterClosingQuote? text
  | '\'' :: text => some text
  | _ :: text => afterClosingQuote? text

def afterOpeningQuote? (text : List Char) : Option (List Char) :=
  match (afterLetters? "as".toList text).bind afterBlanks? with
  | some ('\'' :: body) => some body
  | _ => none

/-- What follows the first quoted body, between dollar tags or after the word `AS` between quotes.
There is none when a semicolon comes before the body, or nothing closes it. -/
def afterBody? : (previous : Option Char) → List Char → Option (List Char)
  | _, [] => none
  | previous, char :: text =>
      match dollarTag? (char :: text) with
      | some (tag, body) => afterOccurrence? tag body
      | none =>
          match if wordBegins previous then afterOpeningQuote? (char :: text) else none with
          | some body => afterClosingQuote? body
          | none => if char = ';' then none else afterBody? (some char) text

def afterDefinition? (heads : List Phrase) (text : List Char) : Option (List Char) :=
  (((afterHead? heads text).bind (afterBody? none)).bind (splitFirst ';')).map
    fun (_, rest) => afterLineEnd rest

/-! ## Calls -/

def afterCall? (function : String) (text : List Char) : Option (List Char) :=
  match (afterLetters? function.toList text).map trimStart with
  | some ('(' :: rest) =>
      match trimStart rest with
      | ')' :: rest => some rest
      | _ => none
  | _ => none

/-! ## Matching -/

/-- What follows the thing that a pattern looks for, when the text begins with it. -/
def Pattern.after? (pattern : Pattern) (previous : Option Char) (text : List Char) :
    Option (List Char) :=
  match pattern with
  | .statement heads demand =>
      if lineBegins previous then afterStatement? heads demand text else none
  | .sentence phrases => if lineBegins previous then afterSentence? phrases text else none
  | .definition heads => if lineBegins previous then afterDefinition? heads text else none
  | .phrase words =>
      if wordBegins previous then (afterPhrase? words text).filter wordEnds else none
  | .call function => if wordBegins previous then afterCall? function text else none

/-- The number of characters of the thing that a pattern looks for, at the beginning of the text. -/
def Pattern.matchLength? (pattern : Pattern) (previous : Option Char) (text : List Char) :
    Option Nat :=
  (pattern.after? previous text).map fun rest => text.length - rest.length

example : dollarTag? "$fn$x".toList = some ("$fn$".toList, "x".toList) := by decide
example : afterClosingQuote? "it''s' x".toList = some " x".toList := by decide
example : afterCall? "now" "NOW ( );".toList = some ";".toList := by decide

end SchemaDdl.Script
