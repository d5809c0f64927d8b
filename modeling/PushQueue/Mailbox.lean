import PushQueue.Engine
import PushQueue.Notification
import PushQueue.TableHandle

/-!
The notifications of a subscriber. One with a topic replaces the stored one of its channel and
topic; the others form a queue in order of position, which the subscriber reads up to a watermark.
-/

namespace PushQueue.Mailbox

/-- What a range read gives: where to go on from, if that is known, and the notifications. -/
structure Page where
  timestamp : Option UInt64
  messages : List Notification
deriving DecidableEq

/-- What a connecting subscriber is given. -/
structure Delivery where
  /-- The notifications are topics, and there may be more of them. -/
  fromTopics : Bool
  messages : List Notification
  timestamp : Option UInt64
deriving DecidableEq

/-- The key of a notification that is stored now; without a position it goes to the current end of
the queue. -/
def keyFor (now : Instant) (n : Notification) : Except StoreError SortKey :=
  if n.topic.isNone && n.legacy then
    .error (.legacyWrite (n.channel.text ++ ":" ++ n.messageId))
  else if n.topic.isNone && n.position.isNone then
    KeyError.orStore (SortKey.ofPosition n.channel now.millis)
  else KeyError.orStore n.sortKey

/-- The row of a notification that is stored now under a key of a partition. -/
def rowUnder (t : TableHandle) (now : Instant) (partition : String) (n : Notification)
    (key : SortKey) : MessageRow where
  key := ⟨partition, key.encode⟩
  content :=
    { headers := n.headers
      data := n.data
      ttl := some n.ttl
      timestamp := some n.timestamp
      updateId := some (n.updateId.getD n.messageId)
      expiry := t.expiryAt now.seconds (some n.ttl) }

def rowFor (t : TableHandle) (now : Instant) (partition : String) (n : Notification) :
    Except StoreError (SortKey × MessageRow) :=
  (keyFor now n).map fun key => (key, rowUnder t now partition n key)

/-- The notification in a row of a subscriber's partition. -/
def readRow (subscriber : SubscriberId) (row : MessageRow) : Except StoreError Notification := do
  let key ← KeyError.orStore (SortKey.parse row.key.sortKey)
  let some timestamp := row.content.timestamp
    | .error (.malformedRow row.key.sortKey .noTimestamp)
  let (messageId, updateId) ←
    match key.messageId, row.content.updateId with
    | some messageId, updateId => .ok (messageId, updateId)
    | none, some updateId => .ok (updateId, some updateId)
    | none, none => .error (.malformedRow row.key.sortKey .noUpdateId)
  return {
    subscriber, timestamp, messageId, updateId
    channel := key.channel
    ttl := row.content.ttl.getD 0
    data := row.content.data
    headers := row.content.headers
    position := key.position
    topic := key.topicName
    source := .stored
    legacy := key.isLegacy }

/-- Store a notification; gives the key it is stored under. -/
def store (t : TableHandle) (now : Instant) (n : Notification) : Action SortKey :=
  .tracked .storeMessage do
    let (key, row) ← Action.ofExcept (rowFor t now (t.partition n.subscriber) n)
    Action.call (Store.putRow t.table row)
    return key

/-- Store notifications for one subscriber in one engine call. All go by one reading of the clock:
one that goes by a later reading is stored as with that position. -/
def storeAll (t : TableHandle) (now : Instant) (subscriber : SubscriberId)
    (ns : List Notification) : Action Unit :=
  .tracked .storeMessages do
    let rows ← Action.ofExcept
      (ns.mapM fun n => (rowFor t now (t.partition subscriber) n).map Prod.snd)
    Action.call (Store.putRows t.table rows)

/-- Delete the row of a notification. With an update id this fails, and says so, once the stored
row carries another. -/
def delete (t : TableHandle) (n : Notification) : Action Bool :=
  .tracked .deleteMessage do
    let key ← Action.ofExcept (KeyError.orStore n.sortKey)
    Action.call (Store.deleteRow t.table ⟨t.partition n.subscriber, key.encode⟩ n.updateId)

/-- The metadata row, if it comes first, and the rows after it. -/
def splitMetadata : List MessageRow → Option RowContent × List MessageRow
  | row :: rest => if row.key.isMetadata then (some row.content, rest) else (none, row :: rest)
  | [] => (none, [])

/-- Topics and rows of the oldest layout, at most `limit` rows with the metadata row counted; the
timestamp is the stored read position. -/
def fetch (t : TableHandle) (subscriber : SubscriberId) (limit : Nat) : Action Page :=
  .tracked .fetchMessages do
    let range := KeyRange.below SortKey.topicUpperBound
    let rows ← Action.read fun s => s.query t.table (t.partition subscriber) range limit
    let (metadata, rows) := splitMetadata rows
    let messages ← Action.ofExcept (rows.mapM (readRow subscriber))
    return ⟨metadata.bind RowContent.readPosition, messages⟩

def lastPosition (messages : List Notification) : Option UInt64 :=
  messages.reverse.findSome? Notification.position

/-- The rows after the topics, or after a watermark. -/
def fetchAfter (t : TableHandle) (subscriber : SubscriberId) (watermark : Option UInt64)
    (limit : Nat) : Action Page :=
  .tracked .fetchTimestampMessages do
    let bound ← Action.ofExcept (KeyError.orStore (SortKey.timestampLowerBound watermark))
    let rows ← Action.read fun s =>
      s.query t.table (t.partition subscriber) (.above bound) limit
    let messages ← Action.ofExcept (rows.mapM (readRow subscriber))
    return ⟨lastPosition messages, messages⟩

def markRead (t : TableHandle) (now : Instant) (subscriber : SubscriberId) (position : UInt64) :
    Action Unit :=
  .tracked .updateLastMessageRead do
    let position ← Action.ofExcept (KeyError.orStore (SortKey.checkPosition position))
    let expiry := t.expiryAt now.seconds none
    Action.call (Store.setReadPosition t.table (t.partition subscriber) position expiry)

/-- What a connecting subscriber reads: topics while there are any and they are asked for, then the
queue after the stored or the given watermark. -/
def check (t : TableHandle) (subscriber : SubscriberId) (includeTopics : Bool)
    (watermark : Option UInt64) (limit : Nat) : Action Delivery := do
  if includeTopics then
    let topics ← fetch t subscriber limit
    if topics.messages.isEmpty then queue (topics.timestamp <|> watermark)
    else return ⟨true, topics.messages, topics.timestamp⟩
  else queue watermark
where
  queue (watermark : Option UInt64) : Action Delivery := do
    let page ← fetchAfter t subscriber watermark limit
    return ⟨false, page.messages, page.timestamp <|> watermark⟩

end PushQueue.Mailbox
