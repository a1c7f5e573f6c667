import SchemaDdl.Json.Value

/-!
# Decoding values

Decoders of the shapes that data files use. A decoder gives nothing when the value has another
shape. The members of a structure may come in any order and among others that the structure does not
know, but a known one may not be repeated; or their values come in order in an array. A name may
also stand as the key of null.
-/

namespace SchemaDdl.Json

/-- How a value is read as a member of a type. -/
abbrev Decoder (α : Type) := Value → Option α

namespace Decode

def bool : Decoder Bool
  | .bool value => some value
  | _ => none

def string : Decoder String
  | .string text => some text
  | _ => none

def integer (least greatest : Int) : Decoder Int
  | .number (.integer value) => if least ≤ value ∧ value ≤ greatest then some value else none
  | _ => none

def int64 : Decoder Int := integer (-Int.pow 2 63) (Int.pow 2 63 - 1)

def nat (greatest : Nat) : Decoder Nat :=
  fun value => (integer 0 greatest value).map Int.toNat

/-- Any number, as a floating-point one. -/
def float : Decoder Binary64
  | .number (.integer value) => some (Binary64.ofInt value)
  | .number (.float value) => some value
  | _ => none

def list {α : Type} (decode : Decoder α) : Decoder (List α)
  | .array items => items.mapM decode
  | _ => none

def nullable {α : Type} (decode : Decoder α) : Decoder (Option α)
  | .null => some none
  | value => (decode value).map some

def named {α : Type} (names : List (String × α)) : Decoder α
  | .string text => names.lookup text
  | .object [(text, .null)] => names.lookup text
  | _ => none

/-- A name inside a value that is read as a whole, where an empty object may stand for null. -/
def namedWithin {α : Type} (names : List (String × α)) : Decoder α
  | .object [(text, .object [])] => names.lookup text
  | value => named names value

/-! ## Members -/

/-- The members of an object with the given keys; none of these may be repeated. -/
def keyed (known : List String) : Decoder (List (String × Value))
  | .object members =>
      let kept := members.filter fun (key, _) => known.contains key
      if (kept.map Prod.fst).Nodup then some kept else none
  | _ => none

/-- The members of a structure with the given keys. An array has their values in this order and may
end before the last. -/
def members (known : List String) : Decoder (List (String × Value))
  | .array items => if items.length ≤ known.length then some (known.zip items) else none
  | value => keyed known value

def required {α : Type} (key : String) (decode : Decoder α) (members : List (String × Value)) :
    Option α :=
  (members.lookup key).bind decode

def optional {α : Type} (key : String) (decode : Decoder α) (members : List (String × Value)) :
    Option (Option α) :=
  match members.lookup key with
  | none => some none
  | some value => nullable decode value

def defaulted {α : Type} (key : String) (default : α) (decode : Decoder α)
    (members : List (String × Value)) : Option α :=
  match members.lookup key with
  | none => some default
  | some value => decode value

def choice : Decoder (String × Value)
  | .object [member] => some member
  | _ => none

end Decode

end SchemaDdl.Json
