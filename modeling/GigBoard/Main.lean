import GigBoard.Maintenance
import Std.Time

/-!
# The command line

`maintenance` with its commands, and `server`, which checks that the service can start.
-/

set_option autoImplicit false

namespace GigBoard

def variableNames : List String :=
  ["DATABASE_URL", "DATABASE_MAX_POOL_SIZE", "RUN_MIGRATIONS", "SERVER_HOST", "SERVER_PORT",
    "JWT_SECRET", "JWT_ISSUER", "JWT_AUDIENCE", "JWT_EXPIRY_MINUTES", "CORS_ALLOWED_ORIGIN"]

def readEnvironment : IO Environment := do
  let values ← variableNames.mapM fun name => do return (name, ← IO.getEnv name)
  return values.filterMap fun (name, value) => value.map fun v => (name, v)

def readClock : IO Timestamp := do
  let now ← Std.Time.Timestamp.now
  return ⟨now.toNanosecondsSinceUnixEpoch.toInt / 1000⟩

def writeReport (report : Report) : IO UInt32 := do
  IO.print report.output
  IO.eprint report.errors
  return report.code.toUInt32

end GigBoard

def main (words : List String) : IO UInt32 := do
  let env ← GigBoard.readEnvironment
  let now ← GigBoard.readClock
  match words with
  | "server" :: _ =>
    match GigBoard.Maintenance.startFailure? env with
    | some report => GigBoard.writeReport report
    | none => return 0
  | "maintenance" :: rest => GigBoard.writeReport (GigBoard.Maintenance.run rest env now none).1
  | _ => GigBoard.writeReport (.misuse GigBoard.Maintenance.usage)
