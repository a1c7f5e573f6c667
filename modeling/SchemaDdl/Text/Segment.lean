import SchemaDdl.Text.Blank

/-!
# Segments of text

Trimming, splitting and searching, over the characters of a text. The readers of the library work on
lists of characters; the functions on `String` at the end only wrap those on lists.
-/

namespace SchemaDdl.Text

/-! ## Trimming -/

def dropTail (test : Char → Bool) (text : List Char) : List Char :=
  (text.reverse.dropWhile test).reverse

def trimStart (text : List Char) : List Char :=
  text.dropWhile isBlank

/-- The text without its trailing blanks. -/
def trimEnd (text : List Char) : List Char :=
  dropTail isBlank text

/-- The text without the blanks at its two ends. -/
def trim (text : List Char) : List Char :=
  trimEnd (trimStart text)

/-! ## Splitting -/

/-- The pieces between the separators, which are the characters that satisfy the test; a text
without separators is one piece. -/
def pieces (separates : Char → Bool) : List Char → List (List Char)
  | [] => [[]]
  | char :: rest =>
      if separates char then
        [] :: pieces separates rest
      else
        match pieces separates rest with
        | [] => [[char]]
        | first :: others => (char :: first) :: others

def words (text : List Char) : List (List Char) :=
  (pieces isBlank text).filter fun piece => !piece.isEmpty

def splitFirst (separator : Char) : List Char → Option (List Char × List Char)
  | [] => none
  | char :: rest =>
      if char = separator then
        some ([], rest)
      else
        (splitFirst separator rest).map fun (before, after) => (char :: before, after)

def splitLast (separator : Char) : List Char → Option (List Char × List Char)
  | [] => none
  | char :: rest =>
      match splitLast separator rest with
      | some (before, after) => some (char :: before, after)
      | none => if char = separator then some ([], rest) else none

/-! ## Searching -/

def after? : (beginning text : List Char) → Option (List Char)
  | [], text => some text
  | _ :: _, [] => none
  | expected :: beginning, char :: text => if expected = char then after? beginning text else none

def occursIn (needle : List Char) : List Char → Bool
  | [] => needle.isEmpty
  | char :: rest => needle.isPrefixOf (char :: rest) || occursIn needle rest

/-! ## Letter case -/

def lower (text : List Char) : List Char :=
  text.map Char.toLower

/-! ## On strings -/

/-- `trim` on a string. -/
def trimmed (text : String) : String :=
  String.ofList (trim text.toList)

def lowered (text : String) : String :=
  String.ofList (lower text.toList)

def sameLetters (left right : String) : Bool :=
  lowered left == lowered right

def contains (text needle : String) : Bool :=
  occursIn needle.toList text.toList

def startsWith (text beginning : String) : Bool :=
  beginning.toList.isPrefixOf text.toList

def endsWith (text ending : String) : Bool :=
  ending.toList.isSuffixOf text.toList

def withoutFinalSemicolons (text : String) : String :=
  String.ofList (dropTail (· == ';') text.toList)

/-- The texts one after another, with `separator` between neighbours. -/
def join (separator : String) (texts : List String) : String :=
  separator.intercalate texts

def listed (texts : List String) : String :=
  join ", " texts

def byteLength (text : String) : Nat :=
  text.utf8ByteSize

example : trim " a b\t".toList = "a b".toList := by decide
example : words " a  b ".toList = ["a".toList, "b".toList] := by decide
example : pieces (· == ',') "a,,b".toList = ["a".toList, [], "b".toList] := by decide
example : splitLast '.' "a.b.c".toList = some ("a.b".toList, "c".toList) := by decide

end SchemaDdl.Text
