import PushQueue.Admin
import PushQueue.Location
import PushQueue.Store.Snapshot
import Std.Time.DateTime.Timestamp

/-! The operator's program: reads settings and database, runs one command, prints its report. -/

namespace PushQueue.Main

def fileState (path : String) : IO FileState := do
  try return .text (← IO.FS.readFile path)
  catch
    | .noFileOrDirectory .. => return .missing
    | _ => return .unreadable

def environment : IO Environment := do
  return {
    dataDirectory := ← IO.getEnv "PUSHSTORE_DATA_DIR"
    configFile := ← IO.getEnv "PUSHSTORE_CONFIG"
    home := ← IO.getEnv "HOME" }

/-- The store in a database file; a missing file is a new store. -/
def openStore (path : String) : IO (Except StoreError Store) := do
  match ← fileState path with
  | .missing => return Store.openSnapshot none
  | .unreadable => return .error (.unavailable path)
  | .text content =>
    match Json.parse? content with
    | some j => return Store.openSnapshot (some j)
    | none => return .error (.unavailable "not a database")

def now : IO Instant := do
  return ⟨(← Std.Time.Timestamp.now).toMillisecondsSinceUnixEpoch.val⟩

def fail (code : UInt32) (message : String) : IO UInt32 := do
  IO.eprintln message
  return code

/-- Write the database file, in a directory that is made if it is missing. -/
def saveStore (path : String) (store : Store) : IO Unit := do
  if let some directory := parentPath? path then IO.FS.createDirAll directory
  IO.FS.writeFile path store.toJson.render

def execute (settings : Settings) (env : Environment) (command : Command) : IO UInt32 := do
  let path := settings.databasePath env
  match ← openStore path with
  | .error e => fail 1 e.message
  | .ok store =>
    let (result, engine) := (Admin.run settings (← now) command).run { store }
    saveStore path engine.store
    match Admin.outcome result with
    | .ok report => do
      IO.println report.toJson.render
      return 0
    | .error e => fail 1 e.message

end PushQueue.Main

open PushQueue in
def main (args : List String) : IO UInt32 := do
  match Invocation.parse args with
  | .error .helpAsked => do
    IO.println UsageError.helpAsked.message
    return 0
  | .error e => Main.fail 2 e.message
  | .ok invocation =>
    let env ← Main.environment
    let path := invocation.config.getD env.configPath
    match Settings.load path (← Main.fileState path) with
    | .ok settings => Main.execute settings env invocation.command
    | .error e => Main.fail 1 (StoreError.config e).message
