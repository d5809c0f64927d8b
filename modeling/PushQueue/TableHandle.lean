import PushQueue.Calendar.Instant
import PushQueue.Pseudonym
import PushQueue.StoreError
import PushQueue.TableName

/-!
A table with what its users need: the partition keys in use and the longest lifetime of a row.
-/

namespace PushQueue

/-- The longest time that a row is kept, in seconds: thirty days. -/
def maxRetention : UInt64 := 2592000

structure TableHandle where
  table : String
  pseudonym : Pseudonym := .disabled
  maxTtl : UInt64 := maxRetention
  valid_table : TableName.isValid table = true
  maxTtl_le : maxTtl ≤ maxRetention := by decide

namespace TableHandle

/-- A handle without key material and with the longest lifetime. -/
def make (table : String) : Except StoreError TableHandle :=
  if h : TableName.isValid table = true then .ok { table, valid_table := h }
  else .error (.invalidTableName table)

def withPseudonym (t : TableHandle) (pseudonym : Pseudonym) : TableHandle := { t with pseudonym }

/-- Lifetimes are cut at `maxTtl`, or at the longest retention if that is less. -/
def withMaxTtl (t : TableHandle) (maxTtl : UInt64) : TableHandle :=
  if h : maxTtl ≤ maxRetention then { t with maxTtl, maxTtl_le := h }
  else { t with maxTtl := maxRetention, maxTtl_le := by decide }

def forTable (t : TableHandle) (table : String) : Except StoreError TableHandle :=
  if h : TableName.isValid table = true then .ok { t with table, valid_table := h }
  else .error (.invalidTableName table)

def partition (t : TableHandle) (subscriber : SubscriberId) : String :=
  t.pseudonym.partition subscriber

/-- When a row written at `second` expires; without a lifetime it gets the longest. -/
def expiryAt (t : TableHandle) (second : UInt64) (ttl : Option UInt64) : UInt64 :=
  secondAfter second (match ttl with | some ttl => min ttl t.maxTtl | none => t.maxTtl)

def summary (t : TableHandle) : String :=
  "TableContext \x7b table: " ++ Text.quote t.table ++ ", hasher: " ++ t.pseudonym.summary ++
    ", max_ttl: " ++ toString t.maxTtl ++ ", .. \x7d"

end TableHandle

end PushQueue
