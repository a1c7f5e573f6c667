import SchemaDdl.DeclaredType
import SchemaDdl.Json.Value
import SchemaDdl.Schema.Name

/-!
# Columns

A column with its declared type as written, and everything that may be attached to it.
-/

namespace SchemaDdl

/-- What happens to referencing rows when a referenced one changes. -/
inductive ReferentialAction where
  | noAction
  | restrict
  | cascade
  | setNull
  | setDefault
deriving DecidableEq, Repr

/-- The SQL words of an action. -/
def ReferentialAction.sql : ReferentialAction → String
  | .noAction => "NO ACTION"
  | .restrict => "RESTRICT"
  | .cascade => "CASCADE"
  | .setNull => "SET NULL"
  | .setDefault => "SET DEFAULT"

/-- A reference of one column to a column of another table. -/
structure Reference where
  table : QualifiedName
  column : String
  onDelete : Option ReferentialAction := none
  onUpdate : Option ReferentialAction := none
deriving DecidableEq, Repr

/-- A literal default. -/
inductive Literal where
  | null
  | boolean (value : Bool)
  | integer (value : Int)
  | float (value : Binary64)
  | string (value : String)
  | json (value : Json.Value)
deriving Repr

/-- Equality of literals, with floating-point numbers compared as numbers. -/
def Literal.same : Literal → Literal → Bool
  | .null, .null => true
  | .boolean left, .boolean right => left == right
  | .integer left, .integer right => left == right
  | .float left, .float right => left.same right
  | .string left, .string right => left == right
  | .json left, .json right => left.same right
  | _, _ => false

instance : BEq Literal := ⟨Literal.same⟩

/-- A default whose spelling depends on the dialect. -/
inductive Sentinel where
  | emptyObject
  | emptyArray
  | genRandomUuid
  | currentTimestamp
  | currentDate
  | uniqueRowId
deriving DecidableEq, Repr

/-- The default of a column: a literal, an expression as written, or a sentinel. -/
inductive Default where
  | literal (literal : Literal)
  | raw (expression : String)
  | sentinel (sentinel : Sentinel)
deriving Repr

def Default.same : Default → Default → Bool
  | .literal left, .literal right => left == right
  | .raw left, .raw right => left == right
  | .sentinel left, .sentinel right => left == right
  | _, _ => false

instance : BEq Default := ⟨Default.same⟩

/-- The expression of a computed column, kept with the row or computed on reading. -/
structure Generation where
  expression : String
  stored : Bool := true
deriving DecidableEq, Repr

/-- A column of a table. -/
structure Column where
  name : String
  dataType : String
  nullable : Bool := true
  primaryKey : Bool := false
  unique : Bool := false
  autoIncrement : Bool := false
  generated : Option Generation := none
  default : Option Default := none
  references : Option Reference := none
  check : Option String := none
  arrayDimensions : Nat := 0
  collation : Option String := none
  comment : Option String := none
deriving Repr, BEq

namespace Column

def baseType (column : Column) : String :=
  DeclaredType.base column.dataType

/-- The canonical base name of the declared type. -/
def canonicalType (column : Column) : String :=
  DeclaredType.normalized column.dataType

/-- Whether the column holds an array, by its dimensions or by its declared type. -/
def isArray (column : Column) : Bool :=
  0 < column.arrayDimensions || DeclaredType.isArray column.dataType

def declaredType (column : Column) : String :=
  if DeclaredType.isArray column.dataType then
    column.dataType
  else
    column.dataType ++ String.join (List.replicate column.arrayDimensions "[]")

def isGenerated (column : Column) : Bool :=
  column.generated.isSome

def affinity (column : Column) : Affinity :=
  DeclaredType.affinity column.dataType

/-- Whether rows that exist already would lack a value: the column takes no null and nothing fills
it in. -/
def requiresBackfill (column : Column) : Bool :=
  !column.nullable && column.default.isNone && !column.isGenerated && !column.autoIncrement

end Column

end SchemaDdl
