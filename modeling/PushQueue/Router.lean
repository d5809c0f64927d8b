import PushQueue.Engine
import PushQueue.Json.Printer
import PushQueue.Json.Reader
import PushQueue.LastConnect
import PushQueue.Rotation
import PushQueue.RouterRecord
import PushQueue.TableHandle

/-!
Router records: which table holds a subscriber's messages and which node serves its connection.
Writes are conditional, so that a late write of an older connection changes nothing.
-/

namespace PushQueue

structure Router where
  handle : TableHandle
  buckets : Nat

/-- When a call is made, and the random choice that it may use. -/
structure Moment where
  now : Instant
  draw : Nat := 0

namespace Router

def stamp (r : Router) (m : Moment) : UInt64 := LastConnect.stamp m.now r.buckets m.draw

/-- What a connecting subscriber should do next. -/
structure Outcome where
  /-- The stored record; none for a subscriber that is unknown or was dropped. -/
  user : Option RouterRecord
  messageTable : String
  /-- Messages may be waiting. -/
  checkStorage : Bool
  /-- The messages are in an older month than the current one. -/
  rotate : Bool
  resetId : Bool

/-- The row of a record; connection data are stored as text. -/
def rowOf (record : RouterRecord) : RouterContent where
  connectedAt := record.connectedAt
  routerType := record.routerType
  routerData := record.routerData.map fun members => (Json.object members).render
  lastConnect := record.lastConnect
  node := record.node
  recordVersion := record.recordVersion
  month := record.month

def readData (text : String) : Except StoreError (List (String × Json)) :=
  match (Json.parse? text).bind Json.asMembers? with
  | some members => .ok members
  | none => .error (.serialization "router data is not a JSON object")

def readRow (subscriber : SubscriberId) (row : RouterContent) : Except StoreError RouterRecord :=
  let data : Except StoreError (Option (List (String × Json))) :=
    match row.routerData with
    | some text => (readData text).map some
    | none => .ok none
  data.map fun routerData =>
    { subscriber, routerData
      connectedAt := row.connectedAt
      routerType := row.routerType
      lastConnect := row.lastConnect
      node := row.node
      recordVersion := row.recordVersion
      month := row.month }

def get (r : Router) (subscriber : SubscriberId) : Action (Option RouterRecord) :=
  .tracked .getUser do
    let row ← Action.read fun s => s.getRouter r.handle.table (r.handle.partition subscriber)
    match row with
    | some row => return some (← Action.ofExcept (readRow subscriber row))
    | none => return none

/-- Write a record, unless a newer connection or another router type holds the row. -/
def register (r : Router) (record : RouterRecord) : Action Bool :=
  .tracked .registerUser do
    Action.call
      (Store.putRouter r.handle.table (r.handle.partition record.subscriber) (rowOf record))

/-- Point a subscriber at a message table, with a fresh last-connect value. -/
def setMonth (r : Router) (m : Moment) (subscriber : SubscriberId) (month : String) :
    Action Bool :=
  .tracked .updateMessageMonth do
    Action.call
      (Store.setMonth r.handle.table (r.handle.partition subscriber) month (r.stamp m))

/-- Detach a node, if its connection is still the registered one. -/
def detachNode (r : Router) (subscriber : SubscriberId) (node : String) (connectedAt : UInt64) :
    Action Bool :=
  .tracked .removeNodeId do
    Action.call
      (Store.clearNode r.handle.table (r.handle.partition subscriber) node connectedAt)

def drop (r : Router) (subscriber : SubscriberId) : Action Bool :=
  .tracked .dropUser do
    Action.call (Store.deletePartition r.handle.table (r.handle.partition subscriber))

def unknown (rotation : Rotation) (today : Date) : Outcome :=
  ⟨none, rotation.currentTable today, false, false, false⟩

/-- Resolve a connecting subscriber. A record whose month is missing or not retained is dropped;
a known subscriber gets a fresh last-connect value once a month. -/
def lookup (r : Router) (m : Moment) (subscriber : SubscriberId) (connectedAt : UInt64)
    (rotation : Rotation) (today : Date) : Action Outcome := do
  match ← r.get subscriber with
  | none => return unknown rotation today
  | some user =>
    match user.month.filter (rotation.retains today) with
    | none =>
      let _ ← r.drop subscriber
      return unknown rotation today
    | some month =>
      let lastConnect ←
        if LastConnect.inMonth user.lastConnect today.month then pure user.lastConnect
        else do
          let stamp := r.stamp m
          let _ ← Action.call
            (Store.setLastConnect r.handle.table (r.handle.partition subscriber) stamp)
          pure (some stamp)
      return {
        user := some { user with lastConnect, connectedAt }
        messageTable := month
        checkStorage := true
        rotate := month ≠ rotation.currentTable today
        resetId := user.needsReset }

end Router

end PushQueue
