import PushQueue.Proofs.Json.Members
import PushQueue.Proofs.Spelling
import PushQueue.RouterRecord

/-!
The outward form of notifications and of router records. A record is written as an object of the
fields that have a value, and read back as it was; whatever it was itself read from, it is written
with its identifiers in their one form and without the fields that were absent.
-/

namespace PushQueue

section Identifiers

variable {role : Role} {id : Ident role} {fields : List (String × Json)} {name : String} {j : Json}

theorem identOfJson?_eq_some_iff :
    Notification.identOfJson? j = some id ↔ ∃ text, j = .string text ∧ id.IsSpelledBy text := by
  cases j with
  | string text =>
    have hparse : (Ident.parse text).toOption = some id ↔ id.IsSpelledBy text := by
      rw [← Ident.parse_eq_ok_iff]
      cases (Ident.parse text : Except IdentError (Ident role)) with
      | ok other => simp [Except.toOption]
      | error e => simp [Except.toOption]
    simp only [Notification.identOfJson?, Json.asString?, Option.bind_some, hparse,
      Json.string.injEq, exists_eq_left']
  | _ => simp [Notification.identOfJson?, Json.asString?]

theorem identOfJson?_text (id : Ident role) :
    Notification.identOfJson? (.string id.text) = some id :=
  identOfJson?_eq_some_iff.2 ⟨_, rfl, id.isSpelledBy_text⟩

/-- An identifier is read from any of its spellings, and written in its one form. -/
def IsRewrittenAt (name : String) (id : Ident role) (fields : List (String × Json))
    (written : Json) : Prop :=
  (∃ text, fields.lookup name = some (.string text) ∧ id.IsSpelledBy text) ∧
    Uuid.IsCanonical id.text.toList ∧ written.member? name = some (.string id.text)

theorem isRewrittenAt_of_required {written : Json}
    (h : Json.required Notification.identOfJson? fields name = some id)
    (hwritten : written.member? name = some (.string id.text)) :
    IsRewrittenAt name id fields written := by
  obtain ⟨j, hj, hread⟩ := Json.exists_of_required h
  obtain ⟨text, rfl, hspells⟩ := identOfJson?_eq_some_iff.1 hread
  exact ⟨⟨text, hj, hspells⟩, id.uuid.isCanonical_hyphenated, hwritten⟩

end Identifiers

namespace Notification

theorem asWordOf?_sourceWord (s : Source) :
    Json.asWordOf? sourceWords (.string (sourceWord s)) = some s := by
  cases s <;> rfl

def slots (n : Notification) : List (String × Option Json) :=
  [("uaid", some (.string n.subscriber.text)), ("channel_id", some (.string n.channel.text)),
    ("ttl", some (.word n.ttl)), ("data", n.data.map .string),
    ("headers", n.headers.map .ofStringMap),
    ("timestamp", some (.word n.timestamp)), ("sortkey_timestamp", n.position.map .word),
    ("topic", n.topic.map .string), ("source", some (.string (sourceWord n.source))),
    ("message_id", some (.string n.messageId)), ("update_id", n.updateId.map .string),
    ("legacy", some (.bool n.legacy))]

theorem names_slots (n : Notification) : n.slots.map Prod.fst = fieldNames := rfl

theorem isWrittenAs_toJson (n : Notification) : Json.IsWrittenAs n.slots n.toJson := by
  refine Json.isWrittenAs_ofMembers ?_ fun name value => ?_
  · rw [names_slots]
    decide
  · simp only [slots, List.mem_append, List.mem_cons, List.not_mem_nil, or_false, Json.mem_memberIf,
      Prod.mk.injEq, Option.some.injEq]
    exact iff_of_eq (by ac_rfl)

theorem ofJson?_of_isWrittenAs {n : Notification} {j : Json} (h : Json.IsWrittenAs n.slots j) :
    ofJson? j = some n := by
  unfold ofJson?
  refine h.read_eq ?_
  refine .bind (.required rfl (identOfJson?_text n.subscriber)) ?_
  refine .bind (.required rfl (identOfJson?_text n.channel)) ?_
  refine .bind (.withDefault rfl (Json.asWord?_word n.ttl)) ?_
  refine .bind (.optional rfl Json.asString?_string nofun) ?_
  refine .bind (.optional rfl Json.asStringMap?_ofStringMap nofun) ?_
  refine .bind (.required rfl (Json.asWord?_word n.timestamp)) ?_
  refine .bind (.optional rfl Json.asWord?_word nofun) ?_
  refine .bind (.optional rfl Json.asString?_string nofun) ?_
  refine .bind (.withDefault rfl (asWordOf?_sourceWord n.source)) ?_
  refine .bind (.required rfl (Json.asString?_string n.messageId)) ?_
  refine .bind (.optional rfl Json.asString?_string nofun) ?_
  refine .bind (.withDefault rfl rfl) ?_
  exact .pure n

def omittable : List String := ["data", "headers", "sortkey_timestamp", "topic", "update_id"]

theorem toJson_of_ofJson? {n : Notification} {j : Json} (h : ofJson? j = some n) :
    ∃ fields, j.asRecord? fieldNames = some fields ∧
      IsRewrittenAt "uaid" n.subscriber fields n.toJson ∧
      IsRewrittenAt "channel_id" n.channel fields n.toJson ∧
      Json.Omits omittable fields n.toJson := by
  obtain ⟨fields, hfields, h⟩ := Option.bind_eq_some_iff.1 h
  obtain ⟨subscriber, hsubscriber, h⟩ := Option.bind_eq_some_iff.1 h
  obtain ⟨channel, hchannel, h⟩ := Option.bind_eq_some_iff.1 h
  obtain ⟨ttl, -, h⟩ := Option.bind_eq_some_iff.1 h
  obtain ⟨data, hdata, h⟩ := Option.bind_eq_some_iff.1 h
  obtain ⟨headers, hheaders, h⟩ := Option.bind_eq_some_iff.1 h
  obtain ⟨timestamp, -, h⟩ := Option.bind_eq_some_iff.1 h
  obtain ⟨position, hposition, h⟩ := Option.bind_eq_some_iff.1 h
  obtain ⟨topic, htopic, h⟩ := Option.bind_eq_some_iff.1 h
  obtain ⟨source, -, h⟩ := Option.bind_eq_some_iff.1 h
  obtain ⟨messageId, -, h⟩ := Option.bind_eq_some_iff.1 h
  obtain ⟨updateId, hupdateId, h⟩ := Option.bind_eq_some_iff.1 h
  obtain ⟨legacy, -, h⟩ := Option.bind_eq_some_iff.1 h
  obtain rfl := Option.some.inj h
  have hmember := fun name => (isWrittenAs_toJson ⟨subscriber, channel, ttl, data, headers,
    timestamp, position, topic, source, messageId, updateId, legacy⟩).member?_eq name
  refine ⟨fields, hfields, isRewrittenAt_of_required hsubscriber (hmember "uaid"),
    isRewrittenAt_of_required hchannel (hmember "channel_id"), ?_⟩
  refine .cons hdata (hmember "data") ?_
  refine .cons hheaders (hmember "headers") ?_
  refine .cons hposition (hmember "sortkey_timestamp") ?_
  refine .cons htopic (hmember "topic") ?_
  refine .cons hupdateId (hmember "update_id") ?_
  exact .nil fields _

end Notification

namespace RouterRecord

def slots (r : RouterRecord) : List (String × Option Json) :=
  [("uaid", some (.string r.subscriber.text)), ("connected_at", some (.word r.connectedAt)),
    ("router_type", some (.string r.routerType)), ("router_data", r.routerData.map .object),
    ("last_connect", r.lastConnect.map .word), ("node_id", r.node.map .string),
    ("record_version", r.recordVersion.map fun v => .natural v.toNat),
    ("current_month", r.month.map .string)]

theorem names_slots (r : RouterRecord) : r.slots.map Prod.fst = fieldNames := rfl

theorem isWrittenAs_toJson (r : RouterRecord) : Json.IsWrittenAs r.slots r.toJson := by
  refine Json.isWrittenAs_ofMembers ?_ fun name value => ?_
  · rw [names_slots]
    decide
  · simp only [slots, List.mem_append, List.mem_cons, List.not_mem_nil, or_false, Json.mem_memberIf,
      Prod.mk.injEq, Option.some.injEq]
    exact iff_of_eq (by ac_rfl)

theorem ofJson?_of_isWrittenAs {r : RouterRecord} {j : Json} (h : Json.IsWrittenAs r.slots j) :
    ofJson? j = some r := by
  unfold ofJson?
  refine h.read_eq ?_
  refine .bind (.required rfl (identOfJson?_text r.subscriber)) ?_
  refine .bind (.required rfl (Json.asWord?_word r.connectedAt)) ?_
  refine .bind (.required rfl (Json.asString?_string r.routerType)) ?_
  refine .bind (.optional rfl Json.asMembers?_object nofun) ?_
  refine .bind (.optional rfl Json.asWord?_word nofun) ?_
  refine .bind (.optional rfl Json.asString?_string nofun) ?_
  refine .bind (.optional rfl Json.asByte?_natural nofun) ?_
  refine .bind (.optional rfl Json.asString?_string nofun) ?_
  exact .pure r

def omittable : List String :=
  ["router_data", "last_connect", "node_id", "record_version", "current_month"]

theorem toJson_of_ofJson? {r : RouterRecord} {j : Json} (h : ofJson? j = some r) :
    ∃ fields, j.asRecord? fieldNames = some fields ∧
      IsRewrittenAt "uaid" r.subscriber fields r.toJson ∧
      Json.Omits omittable fields r.toJson := by
  simp only [ofJson?, Option.bind_eq_bind, Option.bind_eq_some_iff, Option.pure_def,
    Option.some.injEq] at h
  obtain ⟨fields, hfields, subscriber, hsubscriber, connectedAt, -, routerType, -, routerData,
    hrouterData, lastConnect, hlastConnect, node, hnode, recordVersion, hversion, month, hmonth,
    rfl⟩ := h
  have hmember := fun name => (isWrittenAs_toJson ⟨subscriber, connectedAt, routerType, routerData,
    lastConnect, node, recordVersion, month⟩).member?_eq name
  refine ⟨fields, hfields, isRewrittenAt_of_required hsubscriber (hmember "uaid"), ?_⟩
  refine .cons hrouterData (hmember "router_data") ?_
  refine .cons hlastConnect (hmember "last_connect") ?_
  refine .cons hnode (hmember "node_id") ?_
  refine .cons hversion (hmember "record_version") ?_
  refine .cons hmonth (hmember "current_month") ?_
  exact .nil fields _

end RouterRecord

/-- Every notification and every router record is written as the object of the fields that have a
value, and comes back from it as it was. So does one that was read from any other value, and it is
written with its identifiers in their one form and without the fields that were absent. -/
theorem outward_forms_lossless :
    (∀ n : Notification,
      Json.IsWrittenAs n.slots n.toJson ∧ Notification.ofJson? n.toJson = some n) ∧
    (∀ r : RouterRecord,
      Json.IsWrittenAs r.slots r.toJson ∧ RouterRecord.ofJson? r.toJson = some r) ∧
    (∀ j n, Notification.ofJson? j = some n →
      Notification.ofJson? n.toJson = some n ∧
      ∃ fields, j.asRecord? Notification.fieldNames = some fields ∧
        IsRewrittenAt "uaid" n.subscriber fields n.toJson ∧
        IsRewrittenAt "channel_id" n.channel fields n.toJson ∧
        Json.Omits Notification.omittable fields n.toJson) ∧
    (∀ j r, RouterRecord.ofJson? j = some r →
      RouterRecord.ofJson? r.toJson = some r ∧
      ∃ fields, j.asRecord? RouterRecord.fieldNames = some fields ∧
        IsRewrittenAt "uaid" r.subscriber fields r.toJson ∧
        Json.Omits RouterRecord.omittable fields r.toJson) := by
  have hnotification (n : Notification) : Notification.ofJson? n.toJson = some n :=
    Notification.ofJson?_of_isWrittenAs n.isWrittenAs_toJson
  have hrecord (r : RouterRecord) : RouterRecord.ofJson? r.toJson = some r :=
    RouterRecord.ofJson?_of_isWrittenAs r.isWrittenAs_toJson
  exact ⟨fun n => ⟨n.isWrittenAs_toJson, hnotification n⟩,
    fun r => ⟨r.isWrittenAs_toJson, hrecord r⟩,
    fun _ n h => ⟨hnotification n, Notification.toJson_of_ofJson? h⟩,
    fun _ r h => ⟨hrecord r, RouterRecord.toJson_of_ofJson? h⟩⟩

/-- A notification from an array that ends early, with an identifier in braces and a null. -/
theorem outward_forms_lossless_array :
    let j : Json := .array [.string "\x7bDEADBEEF-0000-0000-DECA-FBAD12345678\x7d",
      .string " 11111111111111111111111111111111", .integer 60, .null,
      .object [("encoding", .string "aes128gcm")], .integer 1700000000, .null, .null,
      .object [("stored", .null)], .string "m1"]
    let n : Notification :=
      { subscriber := ⟨⟨0xdeadbeef00000000decafbad12345678⟩⟩
        channel := ⟨⟨0x11111111111111111111111111111111⟩⟩
        ttl := 60, headers := some (SortedMap.empty.insert "encoding" "aes128gcm")
        timestamp := 1700000000, source := .stored, messageId := "m1" }
    Notification.ofJson? j = some n ∧ Notification.ofJson? n.toJson = some n ∧
    n.toJson.member? "uaid" = some (.string "deadbeef-0000-0000-deca-fbad12345678") ∧
    n.toJson.member? "data" = none ∧ n.toJson.member? "update_id" = none := by
  intro j n
  have hread : Notification.ofJson? j = some n := by decide +kernel
  obtain ⟨hback, fields, hfields, ⟨-, -, huaid⟩, -, homits⟩ :=
    outward_forms_lossless.2.2.1 j n hread
  have htext : n.subscriber.text = "deadbeef-0000-0000-deca-fbad12345678" := by decide +kernel
  obtain rfl := Option.some.inj hfields
  exact ⟨hread, hback, htext ▸ huaid, (homits "data" (by decide)).2 (.inr rfl),
    (homits "update_id" (by decide)).2 (.inl rfl)⟩

end PushQueue
