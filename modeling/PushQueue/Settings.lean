import PushQueue.Json.Value
import PushQueue.LastConnect
import PushQueue.Rotation
import PushQueue.TableHandle
import PushQueue.Toml.Decode
import PushQueue.Toml.Reader

/-!
Settings: a TOML document in which every section and every field has a default. Values that would
make a later operation fail are refused when the document is read.
-/

namespace PushQueue

structure DatabaseSettings where
  /-- The database file; empty for the one in the data directory. -/
  path : String := ""
  /-- How long to wait for a busy database, in milliseconds. -/
  busyTimeout : UInt64 := 5000
deriving DecidableEq

structure TableSettings where
  router : String := "router"
  /-- What the names of the monthly tables start with. -/
  stem : String := "message"
  retainedMonths : UInt32 := 3
deriving DecidableEq

structure MessageSettings where
  /-- The longest lifetime of a row, in seconds. -/
  maxTtl : UInt64 := maxRetention
  fetchLimit : UInt64 := 10
deriving DecidableEq

structure KeySettings where
  /-- Key material in hexadecimal; empty to keep partition values as they are. -/
  hashKey : String := ""
  buckets : UInt32 := UInt32.ofNat LastConnect.defaultBuckets
deriving DecidableEq

structure DiagnosticsSettings where
  trackCalls : Bool := false
  logLevel : String := "info"
deriving DecidableEq

structure Settings where
  database : DatabaseSettings := {}
  tables : TableSettings := {}
  messages : MessageSettings := {}
  keys : KeySettings := {}
  diagnostics : DiagnosticsSettings := {}
deriving DecidableEq

open Toml (Members Value)

def DatabaseSettings.ofToml? (v : Value) : Option DatabaseSettings := do
  let fields ← v.asRecord? ["path", "busy_timeout_ms"]
  let path ← fields.field "" Value.asString? "path"
  let busyTimeout ← fields.field 5000 Value.asWord? "busy_timeout_ms"
  return { path, busyTimeout }

def DatabaseSettings.toJson (s : DatabaseSettings) : Json :=
  .ofMembers [("path", .string s.path), ("busy_timeout_ms", .word s.busyTimeout)]

def TableSettings.ofToml? (v : Value) : Option TableSettings := do
  let fields ← v.asRecord? ["router_table", "message_table_prefix", "retained_months"]
  let router ← fields.field "router" Value.asString? "router_table"
  let stem ← fields.field "message" Value.asString? "message_table_prefix"
  let retainedMonths ← fields.field 3 Value.asWord32? "retained_months"
  return { router, stem, retainedMonths }

def TableSettings.toJson (s : TableSettings) : Json :=
  .ofMembers [("router_table", .string s.router), ("message_table_prefix", .string s.stem),
    ("retained_months", .natural s.retainedMonths.toNat)]

def MessageSettings.ofToml? (v : Value) : Option MessageSettings := do
  let fields ← v.asRecord? ["max_ttl_secs", "fetch_limit"]
  let maxTtl ← fields.field maxRetention Value.asWord? "max_ttl_secs"
  let fetchLimit ← fields.field 10 Value.asWord? "fetch_limit"
  return { maxTtl, fetchLimit }

def MessageSettings.toJson (s : MessageSettings) : Json :=
  .ofMembers [("max_ttl_secs", .word s.maxTtl), ("fetch_limit", .word s.fetchLimit)]

def KeySettings.ofToml? (v : Value) : Option KeySettings := do
  let fields ← v.asRecord? ["uaid_hash_key", "last_connect_buckets"]
  let hashKey ← fields.field "" Value.asString? "uaid_hash_key"
  let fallback := UInt32.ofNat LastConnect.defaultBuckets
  let buckets ← fields.field fallback Value.asWord32? "last_connect_buckets"
  return { hashKey, buckets }

def KeySettings.toJson (s : KeySettings) : Json :=
  .ofMembers [("uaid_hash_key", .string s.hashKey),
    ("last_connect_buckets", .natural s.buckets.toNat)]

def DiagnosticsSettings.ofToml? (v : Value) : Option DiagnosticsSettings := do
  let fields ← v.asRecord? ["track_db_calls", "log_level"]
  let trackCalls ← fields.field false Value.asBoolean? "track_db_calls"
  let logLevel ← fields.field "info" Value.asString? "log_level"
  return { trackCalls, logLevel }

def DiagnosticsSettings.toJson (s : DiagnosticsSettings) : Json :=
  .ofMembers [("track_db_calls", .bool s.trackCalls), ("log_level", .string s.logLevel)]

namespace Settings

/-- The settings in a document, not yet checked. -/
def ofMembers? (sections : Members) : Option Settings := do
  let database ← sections.field {} DatabaseSettings.ofToml? "database"
  let tables ← sections.field {} TableSettings.ofToml? "tables"
  let messages ← sections.field {} MessageSettings.ofToml? "messages"
  let keys ← sections.field {} KeySettings.ofToml? "keys"
  let diagnostics ← sections.field {} DiagnosticsSettings.ofToml? "diagnostics"
  return { database, tables, messages, keys, diagnostics }

def toJson (s : Settings) : Json :=
  .ofMembers [("database", s.database.toJson), ("tables", s.tables.toJson),
    ("messages", s.messages.toJson), ("keys", s.keys.toJson),
    ("diagnostics", s.diagnostics.toJson)]

def refuse {α : Type} : Except KeyError α → Except ConfigError α
  | .ok a => .ok a
  | .error reason => .error (.invalidKey reason)

def rotation (s : Settings) : Except ConfigError Rotation :=
  refuse (Rotation.make s.tables.stem s.tables.retainedMonths.toNat)

def pseudonym (s : Settings) : Except ConfigError Pseudonym :=
  refuse (Pseudonym.ofHex s.keys.hashKey)

def buckets (s : Settings) : Nat := LastConnect.clampBuckets s.keys.buckets.toNat

/-- Refuse values that would fail at their first use. -/
def validate (s : Settings) : Except ConfigError Unit := do
  let _ ← s.rotation
  let _ ← s.pseudonym
  refuse (TableName.check s.tables.router)
  if s.messages.fetchLimit = 0 then .error .noFetchLimit else .ok ()

def parse (text : String) : Except ConfigError Settings :=
  match (Toml.parse? text).bind ofMembers? with
  | none => .error .undecodable
  | some s => s.validate.map fun _ => s

/-- A table with the configured keys and limits. -/
def handle (s : Settings) (table : String) : Except StoreError TableHandle :=
  match TableHandle.make table, s.pseudonym with
  | .error e, _ => .error e
  | .ok _, .error reason => .error (.config reason)
  | .ok t, .ok pseudonym => .ok ((t.withPseudonym pseudonym).withMaxTtl s.messages.maxTtl)

end Settings

end PushQueue
