import SchemaDdl.Text.Segment

/-!
# Declared types

A type is kept as it was written. What has to be known about it is read off its text here: the base
name, its canonical spelling, the modifiers between parentheses, and the classes it belongs to.
-/

namespace SchemaDdl

/-- The storage class that SQLite prefers for values of a declared type. -/
inductive Affinity where
  | integer
  | text
  | blob
  | real
  | numeric
deriving DecidableEq, Repr

def Affinity.name : Affinity → String
  | .integer => "integer"
  | .text => "text"
  | .blob => "blob"
  | .real => "real"
  | .numeric => "numeric"

namespace DeclaredType

/-! ## Base names -/

/-- The characters outside of brackets, in small letters; `depth` brackets are open. A closing
bracket too many is passed over. -/
def outsideBrackets (depth : Nat) : List Char → List Char
  | [] => []
  | char :: rest =>
      if char = '(' ∨ char = '[' then outsideBrackets (depth + 1) rest
      else if char = ')' ∨ char = ']' then outsideBrackets (depth - 1) rest
      else if depth = 0 then char.toLower :: outsideBrackets depth rest
      else outsideBrackets depth rest

def withoutArrayWord (words : List (List Char)) : List (List Char) :=
  if words.getLast? = some "array".toList then words.dropLast else words

/-- The base name of a declared type: no modifiers, no array marks, small letters, single blanks. -/
def base (declared : String) : String :=
  let words := withoutArrayWord (Text.words (outsideBrackets 0 declared.toList))
  Text.join " " (words.map String.ofList)

/-- Whether a declared type is an array: `text[]`, `integer ARRAY`. -/
def isArray (declared : String) : Bool :=
  let text := Text.trimEnd declared.toList
  text.getLast? == some ']' || " array".toList.isSuffixOf (Text.lower text)

def aliases : List (String × String) := [
  ("int", "integer"), ("int4", "integer"),
  ("int2", "smallint"),
  ("int8", "bigint"),
  ("float4", "real"),
  ("float8", "double precision"), ("double", "double precision"), ("float", "double precision"),
  ("decimal", "numeric"),
  ("bool", "boolean"),
  ("character varying", "varchar"),
  ("character", "char"), ("bpchar", "char"),
  ("timestamp without time zone", "timestamp"),
  ("timestamp with time zone", "timestamptz"),
  ("time without time zone", "time"),
  ("time with time zone", "timetz"),
  ("serial4", "serial"), ("serial2", "smallserial"), ("serial8", "bigserial")]

def canonical (base : String) : String :=
  (aliases.lookup base).getD base

def normalized (declared : String) : String :=
  canonical (base declared)

/-! ## Modifiers -/

/-- The text between the first opening parenthesis and the next closing one. -/
def modifierText? (declared : String) : Option (List Char) :=
  match Text.splitFirst '(' declared.toList with
  | none => none
  | some (_, rest) => (Text.splitFirst ')' rest).map Prod.fst

/-- A number of at most 32 bits in ASCII digits, with an optional plus sign. -/
def number? (text : List Char) : Option Nat :=
  let digits :=
    match text with
    | '+' :: digits => digits
    | digits => digits
  if digits.isEmpty || !digits.all Char.isDigit then
    none
  else
    let value := digits.foldl (fun n d => n * 10 + (d.toNat - '0'.toNat)) 0
    if value < Nat.pow 2 32 then some value else none

/-- The numeric modifiers of a declared type, in order; entries that are not numbers are left
out. -/
def modifiers (declared : String) : List Nat :=
  match modifierText? declared with
  | none => []
  | some text => (Text.pieces (· == ',') text).filterMap fun piece => number? (Text.trim piece)

/-! ## Classes -/

/-- The affinity of a declared type, by the parts of words that occur in it. -/
def affinity (declared : String) : Affinity :=
  let text := Text.lower declared.toList
  let has (part : String) : Bool := Text.occursIn part.toList text
  if has "int" then .integer
  else if has "char" || has "clob" || has "text" then .text
  else if has "blob" || (Text.trim text).isEmpty then .blob
  else if has "real" || has "floa" || has "doub" then .real
  else .numeric

def isSerial (canonical : String) : Bool :=
  ["serial", "bigserial", "smallserial"].contains canonical

def isInteger (canonical : String) : Bool :=
  ["smallint", "integer", "bigint", "tinyint", "mediumint"].contains canonical || isSerial canonical

def serialBase? (canonical : String) : Option String :=
  [("smallserial", "smallint"), ("serial", "integer"), ("bigserial", "bigint")].lookup canonical

def serialFor? (canonical : String) : Option String :=
  [("smallint", "SMALLSERIAL"), ("integer", "SERIAL"), ("bigint", "BIGSERIAL")].lookup canonical

def isUuid (canonical : String) : Bool := canonical == "uuid"

def isJson (canonical : String) : Bool :=
  ["json", "jsonb"].contains canonical

def isRange (canonical : String) : Bool :=
  ["int4range", "int8range", "numrange", "tsrange", "tstzrange", "daterange", "int4multirange",
    "int8multirange", "nummultirange", "tsmultirange", "tstzmultirange",
    "datemultirange"].contains canonical

def isNetwork (canonical : String) : Bool :=
  ["inet", "cidr", "macaddr", "macaddr8"].contains canonical

def isGeometry (canonical : String) : Bool :=
  ["point", "line", "lseg", "box", "path", "polygon", "circle", "geometry",
    "geography"].contains canonical

def isTextual (canonical : String) : Bool :=
  ["text", "varchar", "char", "citext", "string"].contains canonical

example : base "timestamp(3) with time zone" = "timestamp with time zone" := by decide +kernel
example : normalized "Character Varying (40)[]" = "varchar" := by decide +kernel
example : modifiers "numeric(10, +2, x)" = [10, 2] := by decide +kernel

end DeclaredType

end SchemaDdl
