import SchemaDdl.Text.Fold
import SchemaDdl.Text.Segment
import SchemaDdl.Text.Word

/-!
# Phrases

Words looked for in a text: with blanks between them, without regard to case, and not as parts of
longer words. The functions named `after` give what follows the thing that was found.
-/

namespace SchemaDdl.Text

/-- Words that follow one another with blanks between them. -/
abbrev Phrase := List String

/-- What follows the given letters, when the text begins with them in any case. -/
def afterLetters? : (letters text : List Char) → Option (List Char)
  | [], text => some text
  | _ :: _, [] => none
  | letter :: letters, char :: text =>
      if fold char = fold letter then afterLetters? letters text else none

/-- What follows the blanks at the beginning, of which there must be one at least. -/
def afterBlanks? : List Char → Option (List Char)
  | [] => none
  | char :: text => if isBlank char then some (text.dropWhile isBlank) else none

def afterPhrase? : Phrase → List Char → Option (List Char)
  | [], text => some text
  | [word], text => afterLetters? word.toList text
  | word :: words, text =>
      ((afterLetters? word.toList text).bind afterBlanks?).bind (afterPhrase? words)

def wordBegins (previous : Option Char) : Bool :=
  !previous.any isWord

def wordEnds (text : List Char) : Bool :=
  !text.head?.any isWord

/-- What follows the first of some phrases with which the text begins and after which the rest is
accepted. -/
def afterAnyPhrase? (accepts : List Char → Bool) (phrases : List Phrase) (text : List Char) :
    Option (List Char) :=
  phrases.findSome? fun phrase => (afterPhrase? phrase text).filter accepts

/-- What follows the first place in the text where a word may begin and one of the phrases stands,
with a rest that is accepted. -/
def afterFirst? (accepts : List Char → Bool) (phrases : List Phrase) :
    (previous : Option Char) → List Char → Option (List Char)
  | _, [] => none
  | previous, char :: text =>
      let here :=
        if wordBegins previous then afterAnyPhrase? accepts phrases (char :: text) else none
      here.or (afterFirst? accepts phrases (some char) text)

example : afterPhrase? ["CREATE", "TABLE"] "create \n Table t".toList = some " t".toList := by
  decide +kernel
example : afterFirst? wordEnds [["end"]] none "weekend; END".toList = some [] := by
  decide +kernel

end SchemaDdl.Text
