import SchemaDdl.DeclaredType.Widening
import SchemaDdl.Schema.Column

/-!
# Changes of a column

How two versions of one column differ. Whether a column belongs to the primary key is compared per
table and not here.
-/

namespace SchemaDdl

/-- Two versions of a column. -/
structure ColumnChange where
  old : Column
  new : Column
deriving Repr

namespace ColumnChange

/-- What two declared types are compared by: the base name, the numeric modifiers and whether the
column is an array. -/
def typeSignature (column : Column) : String × List Nat × Bool :=
  (column.canonicalType, DeclaredType.modifiers column.dataType, column.isArray)

def typeChanged (change : ColumnChange) : Bool :=
  typeSignature change.old != typeSignature change.new
    || change.old.collation != change.new.collation

def widening (change : ColumnChange) : Bool :=
  change.typeChanged
    && change.old.collation == change.new.collation
    && change.old.isArray == change.new.isArray
    && DeclaredType.isWidening change.old.dataType change.new.dataType

def nullabilityChanged (change : ColumnChange) : Bool :=
  change.old.nullable != change.new.nullable

def defaultChanged (change : ColumnChange) : Bool :=
  change.old.default != change.new.default

def identityChanged (change : ColumnChange) : Bool :=
  change.old.autoIncrement != change.new.autoIncrement

def generatedChanged (change : ColumnChange) : Bool :=
  change.old.generated != change.new.generated

def uniqueChanged (change : ColumnChange) : Bool :=
  change.old.unique != change.new.unique

def referencesChanged (change : ColumnChange) : Bool :=
  change.old.references != change.new.references

def checkChanged (change : ColumnChange) : Bool :=
  change.old.check != change.new.check

def commentChanged (change : ColumnChange) : Bool :=
  change.old.comment != change.new.comment

def isStructural (change : ColumnChange) : Bool :=
  change.typeChanged || change.nullabilityChanged || change.defaultChanged
    || change.identityChanged || change.generatedChanged || change.uniqueChanged
    || change.referencesChanged || change.checkChanged

def isChange (change : ColumnChange) : Bool :=
  change.isStructural || change.commentChanged

def tightensNullability (change : ColumnChange) : Bool :=
  change.old.nullable && !change.new.nullable

/-- Whether the column is dropped and added again, for a new or changed expression cannot be put in
its place. -/
def regenerates (change : ColumnChange) : Bool :=
  change.generatedChanged && change.new.isGenerated

/-- Whether the change can lose data or be refused for rows that exist. -/
def isDestructive (change : ColumnChange) : Bool :=
  (change.typeChanged && !change.widening)
    || change.tightensNullability
    || (change.uniqueChanged && change.new.unique)
    || (change.referencesChanged && change.new.references.isSome)
    || (change.checkChanged && change.new.check.isSome)
    || change.regenerates

def between? (old new : Column) : Option ColumnChange :=
  let change : ColumnChange := ⟨old, new⟩
  if change.isChange then some change else none

end ColumnChange

end SchemaDdl
