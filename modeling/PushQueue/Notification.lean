import PushQueue.Calendar.Instant
import PushQueue.Ident
import PushQueue.Json.Decode
import PushQueue.SortKey

/-!
Queued notifications, their outward JSON form, and the sort key each one is stored under.
-/

namespace PushQueue

inductive Source where
  /-- Handed in by an application server. -/
  | direct
  | stored
deriving DecidableEq

structure Notification where
  subscriber : SubscriberId
  channel : ChannelId
  /-- The requested lifetime in seconds. -/
  ttl : UInt64 := 0
  data : Option String := none
  headers : Option (SortedMap String String) := none
  /-- The second it was created. -/
  timestamp : UInt64
  /-- Its place in the queue, in milliseconds. -/
  position : Option UInt64 := none
  /-- A notification replaces the stored one of its channel and topic. -/
  topic : Option String := none
  source : Source := .direct
  messageId : String
  /-- The version of the stored row, which guards its deletion. -/
  updateId : Option String := none
  /-- Stored under the oldest key layout. -/
  legacy : Bool := false
deriving DecidableEq

namespace Notification

/-- A fresh notification; its message id is its version too. -/
def fresh (now : Instant) (subscriber : SubscriberId) (channel : ChannelId) (messageId : String)
    (ttl : UInt64) : Notification :=
  { subscriber, channel, messageId, ttl, timestamp := now.seconds, updateId := some messageId }

/-- The first second at which it is stale. -/
def expiry (n : Notification) : UInt64 := secondAfter n.timestamp n.ttl

def expired (n : Notification) (second : UInt64) : Bool := n.expiry ≤ second

/-- Its key: the topic goes before the legacy layout, and that before the position. -/
def sortKey (n : Notification) : Except KeyError SortKey :=
  match n.topic with
  | some topic => SortKey.ofTopic n.channel topic
  | none =>
    if n.legacy then SortKey.ofMessageId n.channel n.messageId
    else
      match n.position with
      | some position => SortKey.ofPosition n.channel position
      | none => .error .missingPosition

def sourceWords : List (String × Source) := [("direct", .direct), ("stored", .stored)]

def sourceWord : Source → String
  | .direct => "direct"
  | .stored => "stored"

def fieldNames : List String :=
  ["uaid", "channel_id", "ttl", "data", "headers", "timestamp", "sortkey_timestamp", "topic",
    "source", "message_id", "update_id", "legacy"]

def identOfJson? {role : Role} (j : Json) : Option (Ident role) :=
  j.asString?.bind fun text => (Ident.parse text).toOption

def ofJson? (j : Json) : Option Notification := do
  let fields ← j.asRecord? fieldNames
  let subscriber ← Json.required identOfJson? fields "uaid"
  let channel ← Json.required identOfJson? fields "channel_id"
  let ttl ← Json.withDefault 0 Json.asWord? fields "ttl"
  let data ← Json.optional Json.asString? fields "data"
  let headers ← Json.optional Json.asStringMap? fields "headers"
  let timestamp ← Json.required Json.asWord? fields "timestamp"
  let position ← Json.optional Json.asWord? fields "sortkey_timestamp"
  let topic ← Json.optional Json.asString? fields "topic"
  let source ← Json.withDefault .direct (Json.asWordOf? sourceWords) fields "source"
  let messageId ← Json.required Json.asString? fields "message_id"
  let updateId ← Json.optional Json.asString? fields "update_id"
  let legacy ← Json.withDefault false Json.asBool? fields "legacy"
  return ⟨subscriber, channel, ttl, data, headers, timestamp, position, topic, source, messageId,
    updateId, legacy⟩

/-- Fields without a value are left out. -/
def toJson (n : Notification) : Json :=
  Json.ofMembers <|
    [("uaid", .string n.subscriber.text), ("channel_id", .string n.channel.text),
      ("ttl", .word n.ttl), ("timestamp", .word n.timestamp),
      ("source", .string (sourceWord n.source)), ("message_id", .string n.messageId),
      ("legacy", .bool n.legacy)] ++
    Json.memberIf "data" .string n.data ++
    Json.memberIf "headers" .ofStringMap n.headers ++
    Json.memberIf "sortkey_timestamp" .word n.position ++
    Json.memberIf "topic" .string n.topic ++
    Json.memberIf "update_id" .string n.updateId

end Notification

end PushQueue
