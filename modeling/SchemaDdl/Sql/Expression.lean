import SchemaDdl.Text.Digit
import SchemaDdl.Text.Fold
import SchemaDdl.Text.Segment

/-!
# Forms of expressions

Recognisers of the forms that decide how a default is written: keywords and calls, the constants
that SQLite takes without parentheses, and expressions that are parenthesized as a whole. Letters
are compared without regard to case, by simple case folding.
-/

namespace SchemaDdl.Sql

/-! ## Keywords and calls -/

def valueKeywords : List String := [
  "current_timestamp", "current_date", "current_time", "localtimestamp", "localtime",
  "current_user", "session_user", "true", "false", "null"]

def isOneOf (keywords : List String) (text : List Char) : Bool :=
  keywords.any fun keyword => Text.foldAll text == keyword.toList

def isNameStart (char : Char) : Bool :=
  (Text.fold char).isLower || char == '_'

def isNamePart (char : Char) : Bool :=
  isNameStart char || char.isDigit

def afterName? : List Char → Option (List Char)
  | [] => none
  | char :: rest => if isNameStart char then some (rest.dropWhile isNamePart) else none

def afterQualifiedName? (text : List Char) : Option (List Char) :=
  match afterName? text with
  | some ('.' :: rest) => afterName? rest
  | other => other

/-- Whether the text is a name, an opening parenthesis, anything, and a closing parenthesis. -/
def isCall (text : List Char) : Bool :=
  match (afterQualifiedName? text).map Text.trimStart with
  | some ('(' :: rest) => rest.getLast? == some ')'
  | _ => false

def isExpressionText (text : List Char) : Bool :=
  let text := Text.trim text
  isOneOf valueKeywords text || isCall text

/-- Whether a string default is an expression and not a text. -/
def isExpression (value : String) : Bool :=
  isExpressionText value.toList

/-! ## Constants without parentheses -/

def constantKeywords : List String :=
  ["current_timestamp", "current_date", "current_time", "true", "false", "null"]

def isExponent : List Char → Bool
  | [] => true
  | mark :: rest =>
      let digits :=
        match rest with
        | '+' :: digits | '-' :: digits => digits
        | digits => digits
      (mark == 'e' || mark == 'E') && !digits.isEmpty && digits.all Text.isDigit

/-- Whether the text is a number without its sign: digits with an optional point, or a point and
digits, and an optional exponent. -/
def isUnsignedNumber (text : List Char) : Bool :=
  let whole := text.takeWhile Text.isDigit
  match text.dropWhile Text.isDigit with
  | '.' :: rest =>
      !(whole.isEmpty && (rest.takeWhile Text.isDigit).isEmpty)
        && isExponent (rest.dropWhile Text.isDigit)
  | rest => !whole.isEmpty && isExponent rest

def isNumber : List Char → Bool
  | '+' :: rest | '-' :: rest => isUnsignedNumber rest
  | text => isUnsignedNumber text

def isHexDigit (char : Char) : Bool :=
  char.isDigit || ('a' ≤ char.toLower && char.toLower ≤ 'f')

/-- Whether the text is the rest of a string literal, up to a closing quote at its end. -/
def isLiteralTail : List Char → Bool
  | [] => false
  | ['\''] => true
  | '\'' :: '\'' :: rest => isLiteralTail rest
  | '\'' :: _ => false
  | _ :: rest => isLiteralTail rest

def isBlobTail (text : List Char) : Bool :=
  text.dropWhile isHexDigit == ['\'']

/-- Whether SQLite takes a text as a default without parentheses. -/
def isConstant (text : List Char) : Bool :=
  isOneOf constantKeywords text || isNumber text ||
    match text with
    | '0' :: 'x' :: digits | '0' :: 'X' :: digits => !digits.isEmpty && digits.all isHexDigit
    | 'x' :: '\'' :: rest | 'X' :: '\'' :: rest => isBlobTail rest
    | '\'' :: rest => isLiteralTail rest
    | _ => false

/-! ## Parentheses -/

/-- Whether the parenthesis that is open at a depth is closed by the last character; quotes hide
parentheses. -/
def closesAtEnd (depth : Nat) (hidden : Bool) : List Char → Bool
  | [] => false
  | '\'' :: rest => closesAtEnd depth (!hidden) rest
  | '(' :: rest => closesAtEnd (if hidden then depth else depth + 1) hidden rest
  | ')' :: rest =>
      if hidden then closesAtEnd depth hidden rest
      else if depth ≤ 1 then rest.isEmpty
      else closesAtEnd (depth - 1) hidden rest
  | _ :: rest => closesAtEnd depth hidden rest

/-- Whether the first parenthesis of the text is closed by its last character. -/
def isParenthesized : List Char → Bool
  | '(' :: rest => closesAtEnd 1 false rest
  | _ => false

example : isExpression " Now ( ) " = true := by decide +kernel
example : isExpression "now" = false := by decide +kernel
example : isConstant "-.5e+3".toList = true := by decide +kernel
example : isConstant "'it''s'".toList = true := by decide +kernel
example : isParenthesized "(a) + (b)".toList = false := by decide +kernel

end SchemaDdl.Sql
