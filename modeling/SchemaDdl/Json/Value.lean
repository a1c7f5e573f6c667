import SchemaDdl.Number.Decimal

/-!
# JSON values

A value as it stands in a text: members keep their order and their repetitions, and whole numbers
are told apart from floating-point ones. `Value.settle?` gives the value that the text denotes once
order and repetitions stop to matter.
-/

namespace SchemaDdl.Json

/-- A number: whole, or binary floating-point. -/
inductive Number where
  | integer (value : Int)
  | float (value : Binary64)
deriving DecidableEq, Repr

/-- A value of a JSON text. `unreadable` stands for a well-formed part that denotes no value: a
string with half a surrogate pair, a number beyond the finite range, or a container nested too
deeply. Such a part may be passed over, but not read. -/
inductive Value where
  | null
  | bool (value : Bool)
  | number (value : Number)
  | string (value : String)
  | array (items : List Value)
  | object (members : List (String × Value))
  | unreadable
deriving Repr, Inhabited

/-- A numeric comparison: a whole number never equals a floating-point one. -/
def Number.same : Number → Number → Bool
  | .integer left, .integer right => left == right
  | .float left, .float right => left.same right
  | _, _ => false

instance : BEq Number := ⟨Number.same⟩

mutual
/-- Equality of values, with numbers compared by `Number.same`. -/
def Value.same : Value → Value → Bool
  | .null, .null => true
  | .bool left, .bool right => left == right
  | .number left, .number right => left == right
  | .string left, .string right => left == right
  | .array left, .array right => sameItems left right
  | .object left, .object right => sameMembers left right
  | _, _ => false

def sameItems : List Value → List Value → Bool
  | [], [] => true
  | left :: lefts, right :: rights => left.same right && sameItems lefts rights
  | _, _ => false

def sameMembers : List (String × Value) → List (String × Value) → Bool
  | [], [] => true
  | (leftKey, left) :: lefts, (rightKey, right) :: rights =>
      leftKey == rightKey && left.same right && sameMembers lefts rights
  | _, _ => false
end

instance : BEq Value := ⟨Value.same⟩

/-- Members in increasing order of keys, with one more member put in or replaced. -/
def insertMember (key : String) (value : Value) :
    List (String × Value) → List (String × Value)
  | [] => [(key, value)]
  | (other, held) :: rest =>
      if key < other then (key, value) :: (other, held) :: rest
      else if key = other then (key, value) :: rest
      else (other, held) :: insertMember key value rest

mutual
/-- The value that a text denotes: members in order of their keys, the last of a repeated key
only. There is none when a part is unreadable. -/
def Value.settle? : Value → Option Value
  | .array items => (settleItems items).map .array
  | .object members => (settleMembers [] members).map .object
  | .unreadable => none
  | value => some value

def settleItems : List Value → Option (List Value)
  | [] => some []
  | item :: items =>
      match item.settle?, settleItems items with
      | some item, some items => some (item :: items)
      | _, _ => none

def settleMembers (settled : List (String × Value)) :
    List (String × Value) → Option (List (String × Value))
  | [] => some settled
  | (key, value) :: members =>
      match value.settle? with
      | some value => settleMembers (insertMember key value settled) members
      | none => none
end

namespace Value

def ofInt (value : Int) : Value := .number (.integer value)

def ofNat (value : Nat) : Value := .number (.integer value)

def ofStrings (texts : List String) : Value := .array (texts.map .string)

def ofOption {α : Type} (encode : α → Value) : Option α → Value
  | none => .null
  | some value => encode value

def member? (key : String) : Value → Option Value
  | .object members => members.lookup key
  | _ => none

end Value

end SchemaDdl.Json
