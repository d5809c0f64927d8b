import PushQueue.Json.Decode
import PushQueue.Store.Row

/-! The JSON form of stored rows, under the names of their columns; what a row lacks is null. -/

namespace PushQueue

def MessageRow.toJson (row : MessageRow) : Json :=
  .ofMembers [
    ("uaid", .string row.key.partition),
    ("chidmessageid", .string row.key.sortKey),
    ("chids", .orNull (fun (s : SortedSet String) => .list .string s.toList) row.content.channels),
    ("current_timestamp", .orNull .word row.content.readPosition),
    ("headers", .orNull .ofStringMap row.content.headers),
    ("data", .orNull .string row.content.data),
    ("ttl", .orNull .word row.content.ttl),
    ("timestamp", .orNull .word row.content.timestamp),
    ("updateid", .orNull .string row.content.updateId),
    ("expiry", .word row.content.expiry)]

def MessageRow.ofJson? (j : Json) : Option MessageRow := do
  let fields ← j.asMembers?
  let partition ← Json.required Json.asString? fields "uaid"
  let sortKey ← Json.required Json.asString? fields "chidmessageid"
  let channels ← Json.optional Json.asStrings? fields "chids"
  let readPosition ← Json.optional Json.asWord? fields "current_timestamp"
  let headers ← Json.optional Json.asStringMap? fields "headers"
  let data ← Json.optional Json.asString? fields "data"
  let ttl ← Json.optional Json.asWord? fields "ttl"
  let timestamp ← Json.optional Json.asWord? fields "timestamp"
  let updateId ← Json.optional Json.asString? fields "updateid"
  let expiry ← Json.required Json.asWord? fields "expiry"
  return ⟨⟨partition, sortKey⟩,
    ⟨channels.map SortedSet.ofList, readPosition, headers, data, ttl, timestamp, updateId, expiry⟩⟩

def RouterContent.toJson (partition : String) (row : RouterContent) : Json :=
  .ofMembers [
    ("uaid", .string partition),
    ("connected_at", .word row.connectedAt),
    ("router_type", .string row.routerType),
    ("router_data", .orNull .string row.routerData),
    ("last_connect", .orNull .word row.lastConnect),
    ("node_id", .orNull .string row.node),
    ("record_version", .orNull (fun v => .natural v.toNat) row.recordVersion),
    ("current_month", .orNull .string row.month)]

def RouterContent.ofJson? (j : Json) : Option (String × RouterContent) := do
  let fields ← j.asMembers?
  let partition ← Json.required Json.asString? fields "uaid"
  let connectedAt ← Json.required Json.asWord? fields "connected_at"
  let routerType ← Json.required Json.asString? fields "router_type"
  let routerData ← Json.optional Json.asString? fields "router_data"
  let lastConnect ← Json.optional Json.asWord? fields "last_connect"
  let node ← Json.optional Json.asString? fields "node_id"
  let recordVersion ← Json.optional Json.asByte? fields "record_version"
  let month ← Json.optional Json.asString? fields "current_month"
  return (partition,
    ⟨connectedAt, routerType, routerData, lastConnect, node, recordVersion, month⟩)

end PushQueue
