import SchemaDdl.Json.Value

/-!
# Writing JSON text

Values on one line without blanks, or indented by two blanks with a member or item on each line. A
member stands where the value has it.
-/

namespace SchemaDdl.Json

/-- A character inside a string: quotes, backslashes and control characters are escaped. -/
def escapeChar (char : Char) : List Char :=
  match char with
  | '"' => ['\\', '"']
  | '\\' => ['\\', '\\']
  | '\x08' => ['\\', 'b']
  | '\x0c' => ['\\', 'f']
  | '\n' => ['\\', 'n']
  | '\r' => ['\\', 'r']
  | '\t' => ['\\', 't']
  | char =>
      if char.toNat < 0x20 then
        ['\\', 'u', '0', '0', Nat.digitChar (char.toNat / 16), Nat.digitChar (char.toNat % 16)]
      else
        [char]

def quoted (text : String) : String :=
  String.ofList ('"' :: text.toList.flatMap escapeChar ++ ['"'])

/-- A number; what is not finite is written as null. -/
def Number.text : Number → String
  | .integer value => toString value
  | .float value => if value.isFinite then value.toData else "null"

mutual
/-- The value on one line. -/
def Value.compact : Value → String
  | .null | .unreadable => "null"
  | .bool value => if value then "true" else "false"
  | .number number => number.text
  | .string text => quoted text
  | .array items => "[" ++ ",".intercalate (compactItems items) ++ "]"
  | .object members => "\x7b" ++ ",".intercalate (compactMembers members) ++ "\x7d"

def compactItems : List Value → List String
  | [] => []
  | item :: items => item.compact :: compactItems items

def compactMembers : List (String × Value) → List String
  | [] => []
  | (key, value) :: members => (quoted key ++ ":" ++ value.compact) :: compactMembers members
end

/-- Lines between an opening and a closing text, at a depth of two blanks each. -/
def block (opening closing : String) (depth : Nat) (lines : List String) : String :=
  if lines.isEmpty then
    opening ++ closing
  else
    let inner := String.ofList (List.replicate (2 * (depth + 1)) ' ')
    let outer := String.ofList (List.replicate (2 * depth) ' ')
    opening ++ "\n" ++ ",\n".intercalate (lines.map (inner ++ ·)) ++ "\n" ++ outer ++ closing

mutual
def Value.indented (depth : Nat) : Value → String
  | .array items => block "[" "]" depth (indentedItems depth items)
  | .object members => block "\x7b" "\x7d" depth (indentedMembers depth members)
  | .null | .unreadable => "null"
  | .bool value => if value then "true" else "false"
  | .number number => number.text
  | .string text => quoted text

def indentedItems (depth : Nat) : List Value → List String
  | [] => []
  | item :: items => item.indented (depth + 1) :: indentedItems depth items

def indentedMembers (depth : Nat) : List (String × Value) → List String
  | [] => []
  | (key, value) :: members =>
      (quoted key ++ ": " ++ value.indented (depth + 1)) :: indentedMembers depth members
end

def Value.pretty (value : Value) : String :=
  value.indented 0

end SchemaDdl.Json
