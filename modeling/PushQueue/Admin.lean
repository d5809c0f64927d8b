import PushQueue.Invocation
import PushQueue.Mailbox
import PushQueue.Migration
import PushQueue.Settings

/-! What the operator's commands do, and the reports they give. -/

namespace PushQueue

inductive AdminError where
  | store (reason : StoreError)
  /-- The subscriber's month has no message table. -/
  | missingTable (name : String)
deriving DecidableEq

def AdminError.message : AdminError → String
  | .store reason => reason.message
  | .missingTable name => "message table " ++ name ++ " does not exist"

structure SubscriberReport where
  subscriber : SubscriberId
  user : Option RouterRecord
  /-- The message table that was read. -/
  month : String
  /-- The metadata row is there. -/
  registered : Bool
  channels : SortedSet ChannelId
  watermark : Option UInt64
  topicMessages : List Notification
  pendingMessages : List Notification
  calls : List (String × Nat × Nat)

inductive Report where
  | rotated (created dropped : List String)
  | swept (removed : List (String × Nat))
  | tables (router : String) (messages retained : List String)
  | subscriber (report : SubscriberReport)

def SubscriberReport.toJson (r : SubscriberReport) : Json :=
  .ofMembers [
    ("uaid", .string r.subscriber.text),
    ("user", .orNull RouterRecord.toJson r.user),
    ("message_month", .string r.month),
    ("registered", .bool r.registered),
    ("channels", .list (fun (c : ChannelId) => .string c.text) r.channels.keys),
    ("watermark", .orNull .word r.watermark),
    ("topic_messages", .list Notification.toJson r.topicMessages),
    ("pending_messages", .list Notification.toJson r.pendingMessages),
    ("db_calls", .list
      (fun (line : String × Nat × Nat) =>
        .array [.string line.1, .natural line.2.1, .natural line.2.2]) r.calls)]

def Report.toJson : Report → Json
  | .rotated created dropped =>
    .ofMembers [("created", .list .string created), ("dropped", .list .string dropped)]
  | .swept removed => .ofMembers (removed.map fun r => (r.1, .natural r.2))
  | .tables router messages retained =>
    .ofMembers [("router", .string router), ("messages", .list .string messages),
      ("retained", .list .string retained)]
  | .subscriber report => report.toJson

namespace Admin

/-- Make the router table and the monthly tables that are missing; drop the retired ones. -/
def rotate (s : Settings) (rotation : Rotation) (today : Date) : Action Report := do
  let _ ← Action.call (Store.createTable .routers s.tables.router)
  let created ← Migration.ensureTables rotation today
  let dropped ← Migration.dropRetired rotation today
  return .rotated created dropped

def sweepTables (cutoff : UInt64) : List String → Action (List (String × Nat))
  | [] => return []
  | name :: rest => do
    let count ← Action.call (Store.sweep name cutoff)
    return (name, count) :: (← sweepTables cutoff rest)

def messageTables : Action (List String) := Action.read fun s => .ok s.messageTables

def sweep (cutoff : UInt64) : Action Report := do
  return .swept (← sweepTables cutoff (← messageTables))

def tables (s : Settings) (rotation : Rotation) (today : Date) : Action Report := do
  return .tables s.tables.router (← messageTables) (rotation.tables today)

/-- What is stored for a subscriber in its month, unless that month has no table. -/
def inspect (s : Settings) (subscriber : SubscriberId) (currentTable : String) :
    Action (Except AdminError SubscriberReport) := do
  let handle ← Action.ofExcept (s.handle s.tables.router)
  let user ← Router.get ⟨handle, s.buckets⟩ subscriber
  let month := (user.bind RouterRecord.month).getD currentTable
  if !(← messageTables).contains month then return .error (.missingTable month)
  let handle ← Action.ofExcept (handle.forTable month)
  let (registered, channels) ← Channels.all handle subscriber
  let limit := s.messages.fetchLimit.toNat
  let topics ← Mailbox.fetch handle subscriber limit
  let pending ← Mailbox.fetchAfter handle subscriber topics.timestamp limit
  return .ok {
    subscriber, user, month, registered, channels
    watermark := topics.timestamp
    topicMessages := topics.messages
    pendingMessages := pending.messages
    calls := [] }

/-- The report on a subscriber, with the calls that it took. -/
def inspectCounted (s : Settings) (subscriber : SubscriberId) (currentTable : String) :
    Action (Except AdminError SubscriberReport) := do
  let (report, stats) ←
    Action.withStats (.new s.diagnostics.trackCalls) (inspect s subscriber currentTable)
  return report.map fun r => { r with calls := stats.snapshot }

def run (s : Settings) (now : Instant) (command : Command) :
    Action (Except AdminError Report) := do
  let rotation ← Action.ofExcept (s.rotation.mapError .config)
  match command with
  | .rotate => return .ok (← rotate s rotation now.date)
  | .sweep => return .ok (← sweep now.seconds)
  | .tables => return .ok (← tables s rotation now.date)
  | .inspect subscriber =>
    let report ← inspectCounted s subscriber (rotation.currentTable now.date)
    return report.map .subscriber

/-- The outcome of a command as one result. -/
def outcome {α : Type} : Except StoreError (Except AdminError α) → Except AdminError α
  | .ok result => result
  | .error reason => .error (.store reason)

end Admin

end PushQueue
