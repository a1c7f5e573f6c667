import SchemaDdl.Command.Arguments
import Std.Time.DateTime

/-!
# The program

Reads the files that a command names, runs it, and prints what it gives back.
-/

namespace SchemaDdl

/-- The text of a file, or of the standard input for a dash; none when it cannot be read. -/
def readInput (file : String) : IO (Option String) := do
  try
    if file == "-" then
      return some (← (← IO.getStdin).readToEnd)
    return some (← IO.FS.readFile file)
  catch _ =>
    return none

def presentInstant : IO Instant := do
  let now := Std.Time.DateTime.ofTimestampWithZone (← Std.Time.Timestamp.now) .UTC
  return {
    date := ⟨now.year, now.month.val.toNat, now.day.val.toNat⟩
    hour := now.hour.val.toNat
    minute := now.minute.val.toNat
    second := now.second.val.toNat
    nanosecond := now.nanosecond.val.toNat }

def runCommand (dialect : Dialect) (command : Command) : IO Command.Result := do
  let texts ← command.files.mapM fun file => do
    return (file, ← readInput file)
  let now ← presentInstant
  let environment : Command.Environment := {
    textOf := fun file => (texts.lookup file).join
    timeText := fun family => MigrationRecord.timeText family now }
  return command.run environment dialect

end SchemaDdl

open SchemaDdl in
def main (arguments : List String) : IO UInt32 := do
  let defaultDialect := (← IO.getEnv "SCHEMA_DDL_DIALECT").getD "postgres"
  match Command.ofArguments defaultDialect arguments with
  | .error error =>
      IO.eprintln s!"error: {error.message}"
      return 2
  | .ok (dialect, command) =>
      match ← runCommand dialect command with
      | .error failure =>
          IO.eprintln s!"Error: {failure.message}"
          return 1
      | .ok output =>
          IO.print output.out
          IO.eprint output.notes
          return output.status.toUInt32
