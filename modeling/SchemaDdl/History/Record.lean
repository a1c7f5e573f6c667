import SchemaDdl.History.Instant
import SchemaDdl.Sql.Quoted
import SchemaDdl.Statement

/-!
# Records of migrations

Which migrations were run: a table in the database with one row for each, the statements that keep
that table, and the rows as they are held in memory. Migrations that are run together are a batch.
-/

namespace SchemaDdl

/-- A migration that was run. -/
structure MigrationRecord where
  name : String
  /-- The digest of the script that was run. -/
  checksum : String
  /-- The number of its batch, which has four bytes. -/
  batch : Nat
  appliedAt : Instant
deriving DecidableEq, Repr

/-! ## The table of records -/

namespace MigrationRecord

def tableName : String := "_oxide_ddl_migrations"

/-- The types of the number and of the time of a record, which depend on the family. -/
def columnTypes : Family → String × String
  | .postgres => ("BIGSERIAL PRIMARY KEY", "TIMESTAMPTZ")
  | .sqlite => ("INTEGER PRIMARY KEY AUTOINCREMENT", "TEXT")

/-- The statement text that creates the table of records. -/
def createTableText (family : Family) : String :=
  let (numberType, timeType) := columnTypes family
  s!"CREATE TABLE IF NOT EXISTS {tableName} (\n"
    ++ s!"    id {numberType},\n"
    ++ "    name TEXT NOT NULL UNIQUE,\n"
    ++ "    checksum TEXT NOT NULL,\n"
    ++ "    batch INTEGER NOT NULL,\n"
    ++ s!"    applied_at {timeType} NOT NULL DEFAULT CURRENT_TIMESTAMP\n)"

/-- The statement that creates the table of records. -/
def createTable (family : Family) : Statement where
  sql := createTableText family
  kind := .create
  operation := .createTable
  destructive := false
  affected := [tableName]

def listText : String :=
  s!"SELECT name, checksum, batch, applied_at FROM {tableName} ORDER BY id"

def insertTextAt (name checksum : String) (batch : Nat) (time : String) : String :=
  let values := Text.listed
    [Sql.literal name, Sql.literal checksum, toString batch, Sql.literal time]
  s!"INSERT INTO {tableName} (name, checksum, batch, applied_at) VALUES ({values})"

/-- An instant as it is written into the table; the Postgres family keeps an offset. -/
def timeText (family : Family) (instant : Instant) : String :=
  match family with
  | .postgres => instant.offsetText
  | .sqlite => instant.plainText

/-- The statement text that makes a record. -/
def insertText (family : Family) (record : MigrationRecord) : String :=
  insertTextAt record.name record.checksum record.batch (timeText family record.appliedAt)

def deleteText (name : String) : String :=
  s!"DELETE FROM {tableName} WHERE name = {Sql.literal name}"

def encode (record : MigrationRecord) : Json.Value :=
  .object
    [("name", .string record.name), ("checksum", .string record.checksum),
      ("batch", Json.Value.ofNat record.batch), ("applied_at", .string record.appliedAt.text)]

end MigrationRecord

/-! ## Histories -/

/-- The records in the order in which they were made. -/
structure MigrationHistory where
  records : List MigrationRecord := []
deriving DecidableEq, Repr, Inhabited

namespace MigrationHistory

def get? (history : MigrationHistory) (name : String) : Option MigrationRecord :=
  history.records.find? (·.name == name)

def isApplied (history : MigrationHistory) (name : String) : Bool :=
  (history.get? name).isSome

def hasOtherChecksum (history : MigrationHistory) (name checksum : String) : Bool :=
  (history.get? name).any (·.checksum != checksum)

/-- The history with one more record. -/
def record (history : MigrationHistory) (record : MigrationRecord) : MigrationHistory :=
  { records := history.records ++ [record] }

/-- The history without the record of a name, the first if there are several. -/
def remove (history : MigrationHistory) (name : String) : MigrationHistory :=
  { records := history.records.eraseP (·.name == name) }

def lastBatchNumber? (history : MigrationHistory) : Option Nat :=
  (history.records.map (·.batch)).max?

/-- The number for the batch that is run next. Behind the largest of four bytes, numbers begin anew
with zero. -/
def nextBatch (history : MigrationHistory) : Nat :=
  (history.lastBatchNumber?.getD 0 + 1) % UInt32.size

def lastBatch (history : MigrationHistory) : List MigrationRecord :=
  match history.lastBatchNumber? with
  | some batch => history.records.reverse.filter (·.batch == batch)
  | none => []

end MigrationHistory

end SchemaDdl
