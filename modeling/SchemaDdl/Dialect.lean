import SchemaDdl.Text.Segment

/-!
# Dialects

The target dialects, the two families of SQL that they belong to, and the names they go by.
-/

namespace SchemaDdl

/-- The dialects that share one way of writing statements. -/
inductive Family where
  | postgres
  | sqlite
deriving DecidableEq, Repr, Inhabited

def Family.name : Family → String
  | .postgres => "postgres"
  | .sqlite => "sqlite"

/-- A target dialect. -/
inductive Dialect where
  | postgres
  | cockroachDb
  | nile
  | sqlite
  | d1
deriving DecidableEq, Repr, Inhabited

/-- A name that belongs to no dialect. -/
structure UnknownDialect where
  name : String
deriving DecidableEq, Repr

namespace Dialect

def all : List Dialect := [.postgres, .cockroachDb, .nile, .sqlite, .d1]

theorem mem_all (dialect : Dialect) : dialect ∈ all := by
  cases dialect <;> simp [all]

def name : Dialect → String
  | .postgres => "postgres"
  | .cockroachDb => "cockroachdb"
  | .nile => "nile"
  | .sqlite => "sqlite"
  | .d1 => "d1"

def family : Dialect → Family
  | .postgres | .cockroachDb | .nile => .postgres
  | .sqlite | .d1 => .sqlite

def codes : List (String × Dialect) := [
  ("postgres", .postgres), ("postgresql", .postgres), ("pg", .postgres),
  ("cockroachdb", .cockroachDb), ("crdb", .cockroachDb),
  ("nile", .nile),
  ("sqlite", .sqlite),
  ("d1", .d1), ("cloudflare-d1", .d1)]

def ofCode? (code : String) : Option Dialect :=
  codes.lookup code

/-- The dialect of a name that somebody types: blanks around it and letter case do not matter. -/
def ofName (name : String) : Except UnknownDialect Dialect :=
  match ofCode? (Text.lowered (Text.trimmed name)) with
  | some dialect => .ok dialect
  | none => .error ⟨name⟩

theorem ofCode?_name (dialect : Dialect) : ofCode? dialect.name = some dialect := by
  cases dialect <;> rfl

end Dialect

def UnknownDialect.message (error : UnknownDialect) : String :=
  s!"unknown dialect '{error.name}' (expected one of: postgres, cockroachdb, nile, sqlite, d1)"

end SchemaDdl
