import PushQueue.KeyError

/-!
What can go wrong in the store. Absent rows and lost races are no errors: operations report them in
their results.
-/

namespace PushQueue

inductive RowDefect where
  | noTimestamp
  | noUpdateId
deriving DecidableEq

def RowDefect.message : RowDefect → String
  | .noTimestamp => "missing timestamp"
  | .noUpdateId => "missing updateid"

inductive ConfigError where
  /-- The text is not a settings document, or a value in it has a wrong type or range. -/
  | undecodable
  | unreadable (path : String)
  | invalidKey (reason : KeyError)
  | noFetchLimit
deriving DecidableEq

def ConfigError.message : ConfigError → String
  | .undecodable => "not a settings document"
  | .unreadable path => path ++ ": not readable"
  | .invalidKey reason => reason.message
  | .noFetchLimit => "fetch_limit must be positive"

def schemaVersion : Nat := 1

inductive StoreError where
  | invalidKey (reason : KeyError)
  | invalidIdent (reason : IdentError)
  /-- A stored row lacks what the layout of its key requires. -/
  | malformedRow (sortKey : String) (defect : RowDefect)
  /-- The engine is busy; the same call may be repeated. -/
  | transient (message : String)
  | unavailable (message : String)
  /-- Rows of the oldest layout are never written. -/
  | legacyWrite (key : String)
  | invalidTableName (name : String)
  /-- The database was made by a later version. -/
  | newerSchema (version : Nat)
  | config (reason : ConfigError)
  | serialization (text : String)
deriving DecidableEq

def StoreError.message : StoreError → String
  | .invalidKey reason => "parse error: " ++ reason.message
  | .invalidIdent reason => "invalid identifier: " ++ reason.message
  | .malformedRow sortKey defect => "malformed row " ++ Text.quote sortKey ++ ": " ++ defect.message
  | .transient message => "transient storage failure: " ++ message
  | .unavailable message => "storage unavailable: " ++ message
  | .legacyWrite key => "refusing to write legacy sort key " ++ Text.quote key
  | .invalidTableName name => "invalid table name: " ++ Text.quote name
  | .newerSchema version =>
    "migration failed: Database version " ++ toString version ++ " is newer than supported " ++
      toString schemaVersion
  | .config reason => "configuration error: " ++ reason.message
  | .serialization text => "serialization error: " ++ text

def StoreError.retryable : StoreError → Bool
  | .transient _ => true
  | _ => false

/-- A key error met while a store call is prepared. -/
def KeyError.orStore {α : Type} : Except KeyError α → Except StoreError α
  | .ok a => .ok a
  | .error reason => .error (.invalidKey reason)

/-- Result codes of the engine that say it is busy or locked; the low eight bits decide. -/
def busyCodes : List Int := [5, 6]

def StoreError.ofEngineFailure (code : Int) (message : String) : StoreError :=
  if (code % 256) ∈ busyCodes then .transient message else .unavailable message

end PushQueue
