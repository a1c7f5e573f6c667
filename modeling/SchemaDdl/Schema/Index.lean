import SchemaDdl.Schema.Name

/-!
# Indexes

An index with its keys, its access method and its storage.
-/

namespace SchemaDdl

/-- The access method of an index. -/
inductive IndexMethod where
  | btree
  | hash
  | gin
  | gist
  | brin
  | spgist
  | custom (name : String)
deriving DecidableEq, Repr, Inhabited

namespace IndexMethod

/-- The word after `USING`. -/
def sql : IndexMethod → String
  | .btree => "btree"
  | .hash => "hash"
  | .gin => "gin"
  | .gist => "gist"
  | .brin => "brin"
  | .spgist => "spgist"
  | .custom name => name

/-- Whether entries are kept in order, so that a direction means something. -/
def isOrdered : IndexMethod → Bool
  | .btree => true
  | _ => false

end IndexMethod

inductive SortDirection where
  | ascending
  | descending
deriving DecidableEq, Repr

inductive NullsOrder where
  | first
  | last
deriving DecidableEq, Repr

/-- What an index key is computed from. -/
inductive IndexTarget where
  | column (name : String)
  | expression (text : String)
deriving DecidableEq, Repr

/-- A key of an index. -/
structure IndexKey where
  target : IndexTarget
  direction : Option SortDirection := none
  nulls : Option NullsOrder := none
deriving DecidableEq, Repr

namespace IndexKey

def column? (key : IndexKey) : Option String :=
  match key.target with
  | .column name => some name
  | .expression _ => none

def isExpression (key : IndexKey) : Bool :=
  key.column?.isNone

def hasOrdering (key : IndexKey) : Bool :=
  key.direction.isSome || key.nulls.isSome

end IndexKey

/-- An index on a table. -/
structure Index where
  name : String
  table : QualifiedName
  keys : List IndexKey := []
  method : IndexMethod := .btree
  unique : Bool := false
  predicate : Option String := none
  covering : List String := []
  storage : List StorageOption := []
  tablespace : Option String := none
deriving DecidableEq, Repr

namespace Index

def keyColumns (index : Index) : List String :=
  index.keys.filterMap IndexKey.column?

def hasExpressions (index : Index) : Bool :=
  index.keys.any IndexKey.isExpression

/-- An index lives in the schema of its table. -/
def qualifiedName (index : Index) : QualifiedName :=
  ⟨index.table.schema, index.name⟩

end Index

end SchemaDdl
