import SchemaDdl.Json.Value

/-!
# Reading JSON text

`read` accepts exactly the texts of the JSON grammar, with blanks around the value, and gives the
value with its members as written.
-/

namespace SchemaDdl.Json

def skipBlanks (text : List Char) : List Char :=
  text.dropWhile fun c => c == ' ' || c == '\n' || c == '\t' || c == '\r'

/-! ## Strings -/

def hexDigit? (char : Char) : Option Nat :=
  if '0' ≤ char ∧ char ≤ '9' then some (char.toNat - '0'.toNat)
  else if 'a' ≤ char ∧ char ≤ 'f' then some (char.toNat - 'a'.toNat + 10)
  else if 'A' ≤ char ∧ char ≤ 'F' then some (char.toNat - 'A'.toNat + 10)
  else none

def escaped? : Char → Option Char
  | '"' => some '"'
  | '\\' => some '\\'
  | '/' => some '/'
  | 'b' => some '\x08'
  | 'f' => some '\x0c'
  | 'n' => some '\n'
  | 'r' => some '\r'
  | 't' => some '\t'
  | _ => none

/-- The code units of a string up to its closing quote, and what follows the quote. A character
beyond the escapes is one unit. -/
def readUnits : List Char → Option (List Nat × List Char)
  | [] => none
  | '"' :: rest => some ([], rest)
  | '\\' :: 'u' :: a :: b :: c :: d :: rest =>
      match hexDigit? a, hexDigit? b, hexDigit? c, hexDigit? d with
      | some a, some b, some c, some d =>
          (readUnits rest).map fun (units, after) =>
            ((((a * 16 + b) * 16 + c) * 16 + d) :: units, after)
      | _, _, _, _ => none
  | '\\' :: letter :: rest =>
      match escaped? letter with
      | some char => (readUnits rest).map fun (units, after) => (char.toNat :: units, after)
      | none => none
  | char :: rest =>
      if char.toNat < 0x20 then none
      else (readUnits rest).map fun (units, after) => (char.toNat :: units, after)

/-- The characters of code units: a leading surrogate and the trailing one after it are one
character, and neither may stand alone. -/
def charsOfUnits : List Nat → Option (List Char)
  | [] => some []
  | unit :: rest =>
      if 0xD800 ≤ unit ∧ unit < 0xDC00 then
        match rest with
        | next :: rest =>
            if 0xDC00 ≤ next ∧ next < 0xE000 then
              (charsOfUnits rest).map
                (Char.ofNat (0x10000 + (unit - 0xD800) * 0x400 + (next - 0xDC00)) :: ·)
            else
              none
        | [] => none
      else if 0xDC00 ≤ unit ∧ unit < 0xE000 then
        none
      else
        (charsOfUnits rest).map (Char.ofNat unit :: ·)

/-! ## Numbers -/

def largestSignificand : Nat := Nat.pow 2 64 - 1

/-- Appends digits to a significand while it stays exact; the digits left over follow. -/
def absorb (significand : Nat) : List Char → Nat × List Char
  | [] => (significand, [])
  | digit :: digits =>
      let next := significand * 10 + (digit.toNat - '0'.toNat)
      if next ≤ largestSignificand then absorb next digits else (significand, digit :: digits)

/-- The parts of a number token, all of them digits. -/
structure Token where
  negative : Bool
  whole : List Char
  fraction : Option (List Char)
  exponent : Option (Bool × List Char)

/-- The number of a token; none when it is beyond the finite range. -/
def Token.number? (token : Token) : Option Number :=
  let (significand, dropped) := absorb 0 token.whole
  match token.fraction, token.exponent, dropped with
  | none, none, [] =>
      if !token.negative then some (.integer significand)
      else if 0 < significand ∧ significand ≤ Nat.pow 2 63 then some (.integer (-significand))
      else some (.float (Binary64.ofInt significand).negate)
  | fraction, exponent, dropped =>
      let places := fraction.getD []
      let (significand, ignored) := absorb significand places
      let shift : Int := dropped.length - (places.length - ignored.length : Nat)
      let power : Int :=
        match exponent with
        | none => 0
        | some (negative, digits) =>
            let value := digits.foldl (fun n d => n * 10 + (d.toNat - '0'.toNat)) 0
            if negative then -value else value
      (Binary64.ofToken significand (shift + power)).map fun value =>
        .float (if token.negative then value.negate else value)

def readDigits (text : List Char) : List Char × List Char :=
  (text.takeWhile Char.isDigit, text.dropWhile Char.isDigit)

def readFraction : List Char → Option (Option (List Char) × List Char)
  | '.' :: rest =>
      match readDigits rest with
      | ([], _) => none
      | (digits, rest) => some (some digits, rest)
  | text => some (none, text)

def readExponentDigits (negative : Bool) (text : List Char) :
    Option (Option (Bool × List Char) × List Char) :=
  match readDigits text with
  | ([], _) => none
  | (digits, rest) => some (some (negative, digits), rest)

def readExponent : List Char → Option (Option (Bool × List Char) × List Char)
  | 'e' :: '+' :: rest | 'E' :: '+' :: rest => readExponentDigits false rest
  | 'e' :: '-' :: rest | 'E' :: '-' :: rest => readExponentDigits true rest
  | 'e' :: rest | 'E' :: rest => readExponentDigits false rest
  | text => some (none, text)

def readToken (negative : Bool) (text : List Char) : Option (Token × List Char) :=
  match readDigits text with
  | ([], _) => none
  | ('0' :: _ :: _, _) => none
  | (whole, rest) =>
      match readFraction rest with
      | none => none
      | some (fraction, rest) =>
          match readExponent rest with
          | none => none
          | some (exponent, rest) => some (⟨negative, whole, fraction, exponent⟩, rest)

def numberValue (token : Token) : Value :=
  match token.number? with
  | some number => .number number
  | none => .unreadable

/-! ## Values -/

def deepest : Nat := 127

def atDepth (depth : Nat) (container : Value) : Value :=
  if depth ≤ deepest then container else .unreadable

mutual
def readValue : (fuel depth : Nat) → List Char → Option (Value × List Char)
  | 0, _, _ => none
  | fuel + 1, depth, text =>
      match text with
      | 'n' :: 'u' :: 'l' :: 'l' :: rest => some (.null, rest)
      | 't' :: 'r' :: 'u' :: 'e' :: rest => some (.bool true, rest)
      | 'f' :: 'a' :: 'l' :: 's' :: 'e' :: rest => some (.bool false, rest)
      | '"' :: rest =>
          match readUnits rest with
          | none => none
          | some (units, rest) =>
              match charsOfUnits units with
              | some chars => some (.string (String.ofList chars), rest)
              | none => some (.unreadable, rest)
      | '[' :: rest =>
          match skipBlanks rest with
          | ']' :: rest => some (atDepth (depth + 1) (.array []), rest)
          | rest =>
              match readItems fuel (depth + 1) rest with
              | some (items, rest) => some (atDepth (depth + 1) (.array items), rest)
              | none => none
      | '\x7b' :: rest =>
          match skipBlanks rest with
          | '\x7d' :: rest => some (atDepth (depth + 1) (.object []), rest)
          | rest =>
              match readMembers fuel (depth + 1) rest with
              | some (some members, rest) => some (atDepth (depth + 1) (.object members), rest)
              | some (none, rest) => some (.unreadable, rest)
              | none => none
      | '-' :: rest => (readToken true rest).map fun (token, rest) => (numberValue token, rest)
      | text => (readToken false text).map fun (token, rest) => (numberValue token, rest)

def readItems : (fuel depth : Nat) → List Char → Option (List Value × List Char)
  | 0, _, _ => none
  | fuel + 1, depth, text =>
      match readValue fuel depth text with
      | none => none
      | some (item, rest) =>
          match skipBlanks rest with
          | ']' :: rest => some ([item], rest)
          | ',' :: rest =>
              (readItems fuel depth (skipBlanks rest)).map fun (items, rest) =>
                (item :: items, rest)
          | _ => none

/-- The members from the first on, and what follows the closing brace. There are none to read when
a key is not readable. -/
def readMembers : (fuel depth : Nat) → List Char →
    Option (Option (List (String × Value)) × List Char)
  | 0, _, _ => none
  | fuel + 1, depth, text =>
      match text with
      | '"' :: rest =>
          match readUnits rest with
          | none => none
          | some (units, rest) =>
              match skipBlanks rest with
              | ':' :: rest =>
                  match readValue fuel depth (skipBlanks rest) with
                  | none => none
                  | some (value, rest) =>
                      let member? := (charsOfUnits units).map fun key =>
                        (String.ofList key, value)
                      match skipBlanks rest with
                      | '\x7d' :: rest => some (member?.map ([·]), rest)
                      | ',' :: rest =>
                          match readMembers fuel depth (skipBlanks rest) with
                          | none => none
                          | some (members?, rest) =>
                              match member?, members? with
                              | some member, some members => some (some (member :: members), rest)
                              | _, _ => some (none, rest)
                      | _ => none
              | _ => none
      | _ => none
end

/-- The value of a text; none when the text is not JSON. -/
def read (text : String) : Option Value :=
  let chars := text.toList
  match readValue (2 * chars.length + 2) 0 (skipBlanks chars) with
  | some (value, rest) => if (skipBlanks rest).isEmpty then some value else none
  | none => none

def readSettled (text : String) : Option Value :=
  (read text).bind Value.settle?

end SchemaDdl.Json
