import SchemaDdl.Schema.Column

/-!
# Table constraints

Constraints over several columns, and the names they get when they have none.
-/

namespace SchemaDdl

/-- A foreign key over a list of columns. -/
structure ForeignKey where
  columns : List String
  table : QualifiedName
  referencedColumns : List String
  onDelete : Option ReferentialAction := none
  onUpdate : Option ReferentialAction := none
  deferrable : Bool := false
deriving DecidableEq, Repr

/-- An expression of an exclusion constraint and the operator it is compared with. -/
structure ExclusionElement where
  expression : String
  operator : String
deriving DecidableEq, Repr

/-- An exclusion constraint. -/
structure Exclusion where
  method : String := "gist"
  elements : List ExclusionElement := []
  predicate : Option String := none
deriving DecidableEq, Repr

/-- What a constraint demands. -/
inductive ConstraintKind where
  | primaryKey (columns : List String)
  | unique (columns : List String)
  | check (expression : String)
  | foreignKey (key : ForeignKey)
  | exclusion (exclusion : Exclusion)
deriving DecidableEq, Repr

/-- A constraint of a table. -/
structure Constraint where
  name : Option String := none
  kind : ConstraintKind
deriving DecidableEq, Repr

def isPlainIdentifier (text : String) : Bool :=
  text.toList.all fun c => c.isAlphanum || c == '_'

namespace Constraint

/-- The columns a constraint covers. A check covers none, and an exclusion those of its elements
that are plain names. -/
def columns (constraint : Constraint) : List String :=
  match constraint.kind with
  | .primaryKey columns | .unique columns => columns
  | .check _ => []
  | .foreignKey key => key.columns
  | .exclusion exclusion => (exclusion.elements.map (·.expression)).filter isPlainIdentifier

/-- The name of a constraint of a table: its own, or one built from the table and the columns. -/
def effectiveName (table : String) (constraint : Constraint) : String :=
  match constraint.name with
  | some name => name
  | none =>
      let columns := Text.join "_" constraint.columns
      match constraint.kind with
      | .primaryKey _ => s!"{table}_pkey"
      | .unique _ => s!"{table}_{columns}_key"
      | .check _ => s!"{table}_check"
      | .foreignKey _ => s!"{table}_{columns}_fkey"
      | .exclusion _ => if columns.isEmpty then s!"{table}_excl" else s!"{table}_{columns}_excl"

def isPrimaryKey (constraint : Constraint) : Bool :=
  match constraint.kind with
  | .primaryKey _ => true
  | _ => false

def primaryKeyColumns? (constraint : Constraint) : Option (List String) :=
  match constraint.kind with
  | .primaryKey columns => some columns
  | _ => none

def foreignKey? (constraint : Constraint) : Option ForeignKey :=
  match constraint.kind with
  | .foreignKey key => some key
  | _ => none

end Constraint

end SchemaDdl
