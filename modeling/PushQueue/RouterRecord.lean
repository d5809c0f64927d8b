import PushQueue.Calendar.Instant
import PushQueue.Notification

/-! What is known of a subscriber's connection, and its outward JSON form. -/

namespace PushQueue

structure RouterRecord where
  subscriber : SubscriberId
  /-- When the subscriber last connected, in milliseconds. -/
  connectedAt : UInt64
  routerType : String
  routerData : Option (List (String × Json)) := none
  lastConnect : Option UInt64 := none
  node : Option String := none
  recordVersion : Option UInt8 := none
  /-- The message table of the subscriber's month. -/
  month : Option String := none

namespace RouterRecord

def defaultRouterType : String := "webpush"

def currentVersion : UInt8 := 1

def fresh (now : Instant) (subscriber : SubscriberId) : RouterRecord :=
  { subscriber, connectedAt := now.millis, routerType := defaultRouterType,
    recordVersion := some currentVersion }

def needsReset (r : RouterRecord) : Bool :=
  match r.recordVersion with
  | some version => version < currentVersion
  | none => true

def fieldNames : List String :=
  ["uaid", "connected_at", "router_type", "router_data", "last_connect", "node_id",
    "record_version", "current_month"]

def ofJson? (j : Json) : Option RouterRecord := do
  let fields ← j.asRecord? fieldNames
  let subscriber ← Json.required Notification.identOfJson? fields "uaid"
  let connectedAt ← Json.required Json.asWord? fields "connected_at"
  let routerType ← Json.required Json.asString? fields "router_type"
  let routerData ← Json.optional Json.asMembers? fields "router_data"
  let lastConnect ← Json.optional Json.asWord? fields "last_connect"
  let node ← Json.optional Json.asString? fields "node_id"
  let recordVersion ← Json.optional Json.asByte? fields "record_version"
  let month ← Json.optional Json.asString? fields "current_month"
  return ⟨subscriber, connectedAt, routerType, routerData, lastConnect, node, recordVersion, month⟩

/-- Fields without a value are left out. -/
def toJson (r : RouterRecord) : Json :=
  Json.ofMembers <|
    [("uaid", .string r.subscriber.text), ("connected_at", .word r.connectedAt),
      ("router_type", .string r.routerType)] ++
    Json.memberIf "router_data" .object r.routerData ++
    Json.memberIf "last_connect" .word r.lastConnect ++
    Json.memberIf "node_id" .string r.node ++
    Json.memberIf "record_version" (fun v => .natural v.toNat) r.recordVersion ++
    Json.memberIf "current_month" .string r.month

end RouterRecord

end PushQueue
