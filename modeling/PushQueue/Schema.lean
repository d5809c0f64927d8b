import PushQueue.StoreError

/-! The version kept in a database, and bringing it up to date when the database is opened. -/

namespace PushQueue

structure Schema where
  /-- The stored version, zero in a new database. -/
  version : Int
  catalog : Bool
deriving DecidableEq

namespace Schema

/-- Make the catalog of a new database; refuse one made by a later version. -/
def migrate (s : Schema) : Except StoreError Schema :=
  if s.version < 0 then .error (.unavailable "schema version out of range")
  else if s.version = 0 then .ok ⟨schemaVersion, true⟩
  else if s.version ≤ schemaVersion then .ok s
  else .error (.newerSchema s.version.toNat)

def migrateTimes : Nat → Schema → Except StoreError Schema
  | 0, s => .ok s
  | n + 1, s => (s.migrate).bind (migrateTimes n)

end Schema

end PushQueue
