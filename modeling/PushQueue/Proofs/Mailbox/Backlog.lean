import PushQueue.Proofs.Mailbox.Place

/-!
What waits for a subscriber: a notification at each place in use, and the metadata row's share in a
read of topics. The rows of a partition stand for a backlog, and every change of a row changes the
backlog at one place.
-/

namespace PushQueue

namespace Notification

/-- Where it is stored now: without a position it goes to the current end of the queue, and in the
oldest layout it is not stored at all. -/
def place? (now : Instant) (n : Notification) : Option Place :=
  match n.topic with
  | some name => Place.ofKey? (.topic n.channel name)
  | none =>
    if n.legacy then none
    else Place.ofKey? (.timestamped (n.position.getD now.millis) n.channel)

/-- Where it is deleted from, if it is not of the oldest layout. -/
def sought? (n : Notification) : Option Place :=
  match n.topic with
  | some name => Place.ofKey? (.topic n.channel name)
  | none =>
    if n.legacy then none
    else n.position.bind fun position => Place.ofKey? (.timestamped position n.channel)

/-- A notification of the oldest layout with a message id that can stand in a key. -/
def isOldest (n : Notification) : Bool :=
  n.topic.isNone && n.legacy && SortKey.isSegment n.messageId

def version (n : Notification) : String := n.updateId.getD n.messageId

def storedAt (n : Notification) (subscriber : SubscriberId) (place : Place) : Notification :=
  { n with
    subscriber
    channel := place.key.channel
    position := place.key.position
    topic := place.key.topicName
    source := .stored
    messageId := n.version
    updateId := some n.version
    legacy := false }

end Notification

structure Backlog where
  messages : SortedMap Place Notification := .empty
  /-- The metadata row is there, and is read with the topics. -/
  hasProfile : Bool := false
  readPosition : Option UInt64 := none

namespace Backlog

def topics (b : Backlog) : List Notification :=
  (b.messages.entries.filter fun e => !e.1.isQueued).map Prod.snd

def queue (b : Backlog) (watermark : Option UInt64) : List Notification :=
  (b.messages.entries.filter fun e => e.1.isAfter watermark).map Prod.snd

end Backlog

namespace Mailbox

open Text

variable {rows rows' : MessageRows} {p : String} {u : SubscriberId} {k : RowKey}

def readBack (u : SubscriberId) (place : Place) (content : RowContent) : Option Notification :=
  content.timestamp.bind fun timestamp => content.updateId.map fun updateId =>
    { subscriber := u
      channel := place.key.channel
      ttl := content.ttl.getD 0
      data := content.data
      headers := content.headers
      timestamp
      position := place.key.position
      topic := place.key.topicName
      source := .stored
      messageId := updateId
      updateId := some updateId
      legacy := false }

theorem messageId_key (place : Place) : place.key.messageId = none := by
  cases place <;> rfl

theorem readRow_of_readBack {place : Place} {content : RowContent} {n : Notification}
    (h : readBack u place content = some n) :
    readRow u ⟨place.rowKey p, content⟩ = .ok n := by
  obtain ⟨timestamp, htimestamp, h⟩ := Option.bind_eq_some_iff.1 h
  obtain ⟨updateId, hupdateId, rfl⟩ := Option.map_eq_some_iff.1 h
  simp only [readRow, Place.rowKey, Place.parse_encode_key, KeyError.orStore, htimestamp,
    hupdateId, bind, Except.bind, messageId_key, place.isLegacy_key]
  rfl

theorem updateId_of_readBack {place : Place} {content : RowContent} {n : Notification}
    (h : readBack u place content = some n) : n.updateId = content.updateId := by
  obtain ⟨timestamp, -, h⟩ := Option.bind_eq_some_iff.1 h
  obtain ⟨updateId, hupdateId, rfl⟩ := Option.map_eq_some_iff.1 h
  exact hupdateId.symm

/-- The backlog that the rows of a partition stand for. -/
def backlog (rows : MessageRows) (p : String) (u : SubscriberId) : Backlog where
  messages := rows.view (Place.embedding p) (readBack u)
  hasProfile := rows.contains (RowKey.metadata p)
  readPosition := (rows.get? (RowKey.metadata p)).bind RowContent.readPosition

theorem key_of_mem_backlog {entry : Place × Notification}
    (h : entry ∈ (backlog rows p u).messages.entries) :
    entry.2.position = entry.1.key.position ∧ entry.2.channel = entry.1.key.channel := by
  obtain ⟨row, -, hview⟩ := List.mem_filterMap.1 h
  obtain ⟨-, hread⟩ := SortedMap.viewEntry_eq_some_iff.1 hview
  obtain ⟨timestamp, -, hread⟩ := Option.bind_eq_some_iff.1 hread
  obtain ⟨updateId, -, hread⟩ := Option.map_eq_some_iff.1 hread
  rw [← hread]
  exact ⟨rfl, rfl⟩

/-- Every row of the partition but the metadata row is a whole row at a place. -/
def Tidy (rows : MessageRows) (p : String) : Prop :=
  ∀ k content, rows.get? k = some content → k.partition = p → k ≠ RowKey.metadata p →
    ∃ place : Place, place.rowKey p = k ∧ content.timestamp.isSome ∧ content.updateId.isSome

theorem tidy_empty (p : String) : Tidy .empty p := by
  intro k content h
  cases h

theorem Tidy.exists_readBack {place : Place} {content : RowContent} (h : Tidy rows p)
    (hget : rows.get? (place.rowKey p) = some content) :
    ∃ n, readBack u place content = some n := by
  obtain ⟨-, -, htimestamp, hupdateId⟩ := h _ _ hget rfl (place.rowKey_ne_metadata p)
  obtain ⟨timestamp, htimestamp⟩ := Option.isSome_iff_exists.1 htimestamp
  obtain ⟨updateId, hupdateId⟩ := Option.isSome_iff_exists.1 hupdateId
  unfold readBack
  rw [htimestamp, hupdateId]
  exact ⟨_, rfl⟩

section Frame

def SamePartition (rows rows' : MessageRows) (p : String) : Prop :=
  ∀ k : RowKey, k.partition = p → rows'.get? k = rows.get? k

theorem SamePartition.backlog (h : SamePartition rows rows' p) :
    backlog rows' p u = backlog rows p u := by
  have hmetadata := h (RowKey.metadata p) rfl
  have hview : rows'.view (Place.embedding p) (readBack u) =
      rows.view (Place.embedding p) (readBack u) := by
    apply SortedMap.ext_get?
    intro place
    rw [SortedMap.get?_view, SortedMap.get?_view, h _ rfl]
  simp only [Mailbox.backlog, hview, SortedMap.contains, hmetadata]

theorem SamePartition.tidy (h : SamePartition rows rows' p) (htidy : Tidy rows p) :
    Tidy rows' p := by
  intro k content hget hp
  rw [h k hp] at hget
  exact htidy k content hget hp

theorem samePartition_insert (h : k.partition ≠ p) (content : RowContent) :
    SamePartition rows (rows.insert k content) p := by
  intro k' hk'
  have hne : k ≠ k' := fun heq => h (heq ▸ hk')
  rw [SortedMap.get?_insert, if_neg hne]

theorem samePartition_upsert (h : k.partition ≠ p) (name : String) (fresh : RowContent)
    (merge : RowContent → RowContent) :
    SamePartition rows (Store.upsert name k fresh merge rows) p := by
  intro k' hk'
  have hne : k ≠ k' := fun heq => h (heq ▸ hk')
  rw [Store.get?_upsert, if_neg hne]

end Frame

section Places

theorem Tidy.insert {content : RowContent} (h : Tidy rows p) (place : Place)
    (htimestamp : content.timestamp.isSome) (hupdateId : content.updateId.isSome) :
    Tidy (rows.insert (place.rowKey p) content) p := by
  intro k stored hget hp hk
  rw [SortedMap.get?_insert] at hget
  split at hget
  next heq =>
    cases hget
    exact ⟨place, heq, htimestamp, hupdateId⟩
  next => exact h k stored hget hp hk

theorem Tidy.erase (h : Tidy rows p) (k : RowKey) : Tidy (rows.erase k) p := by
  intro k' stored hget
  rw [SortedMap.get?_erase] at hget
  split at hget
  · cases hget
  · exact h k' stored hget

theorem Tidy.upsert (h : Tidy rows p) (name : String) (fresh : RowContent)
    (merge : RowContent → RowContent) :
    Tidy (Store.upsert name (RowKey.metadata p) fresh merge rows) p := by
  intro k stored hget hp hk
  rw [Store.get?_upsert, if_neg (Ne.symm hk)] at hget
  exact h k stored hget hp hk

theorem Tidy.insert_metadata (h : Tidy rows p) (content : RowContent) :
    Tidy (rows.insert (RowKey.metadata p) content) p := by
  intro k stored hget hp hk
  rw [SortedMap.get?_insert, if_neg (Ne.symm hk)] at hget
  exact h k stored hget hp hk

theorem backlog_insert {place : Place} {content : RowContent} {n : Notification}
    (h : readBack u place content = some n) :
    backlog (rows.insert (place.rowKey p) content) p u =
      { backlog rows p u with messages := (backlog rows p u).messages.insert place n } := by
  have hview := SortedMap.view_insert_key (Place.embedding p) (readBack u) rows h
  have hmetadata : (rows.insert (place.rowKey p) content).get? (RowKey.metadata p) =
      rows.get? (RowKey.metadata p) := by
    rw [SortedMap.get?_insert, if_neg (place.rowKey_ne_metadata p)]
  have hview : (rows.insert (place.rowKey p) content).view (Place.embedding p) (readBack u) =
      (rows.view (Place.embedding p) (readBack u)).insert place n := hview
  simp only [backlog, hview, SortedMap.contains, hmetadata]

theorem backlog_erase (place : Place) :
    backlog (rows.erase (place.rowKey p)) p u =
      { backlog rows p u with messages := (backlog rows p u).messages.erase place } := by
  have hview : (rows.erase (place.rowKey p)).view (Place.embedding p) (readBack u) =
      (rows.view (Place.embedding p) (readBack u)).erase place :=
    SortedMap.view_erase_key (Place.embedding p) (readBack u) rows place
  have hmetadata : (rows.erase (place.rowKey p)).get? (RowKey.metadata p) =
      rows.get? (RowKey.metadata p) := by
    rw [SortedMap.get?_erase, if_neg (place.rowKey_ne_metadata p)]
  simp only [backlog, hview, SortedMap.contains, hmetadata]

theorem Tidy.get?_legacy (h : Tidy rows p) {channel : ChannelId} {messageId : String}
    (hid : SortKey.isSegment messageId = true) :
    rows.get? ⟨p, SortKey.encode (.legacy channel messageId)⟩ = none := by
  have hparse : SortKey.parse (SortKey.encode (.legacy channel messageId)) =
      .ok (.legacy channel messageId) :=
    SortKey.parse_encode (SortKey.isSegment_spec hid)
  cases hget : rows.get? ⟨p, SortKey.encode (.legacy channel messageId)⟩ with
  | none => rfl
  | some content =>
    have hne : (⟨p, SortKey.encode (.legacy channel messageId)⟩ : RowKey) ≠ RowKey.metadata p := by
      intro heq
      have hkey : SortKey.encode (.legacy channel messageId) = SortKey.metadata :=
        congrArg RowKey.sortKey heq
      rw [hkey] at hparse
      cases hparse
    obtain ⟨place, hplace, -⟩ := h _ _ hget rfl hne
    have hkey : place.key.encode = SortKey.encode (.legacy channel messageId) :=
      congrArg RowKey.sortKey hplace
    rw [← hkey, place.parse_encode_key] at hparse
    have hlegacy := place.isLegacy_key
    rw [Except.ok.inj hparse] at hlegacy
    cases hlegacy

end Places

section Metadata

theorem backlog_upsert (name : String) (fresh : RowContent) (merge : RowContent → RowContent) :
    backlog (Store.upsert name (RowKey.metadata p) fresh merge rows) p u =
      { backlog rows p u with
        hasProfile := true
        readPosition :=
          match rows.get? (RowKey.metadata p) with
          | none => fresh.readPosition
          | some stored =>
            if Store.offersShadowed name then stored.readPosition
            else (merge stored).readPosition } := by
  have hview : (Store.upsert name (RowKey.metadata p) fresh merge rows).view
      (Place.embedding p) (readBack u) = rows.view (Place.embedding p) (readBack u) := by
    apply SortedMap.ext_get?
    intro place
    have hne : RowKey.metadata p ≠ (Place.embedding p).key place :=
      Ne.symm (place.rowKey_ne_metadata p)
    rw [SortedMap.get?_view, SortedMap.get?_view, Store.get?_upsert, if_neg hne]
  simp only [backlog, hview, SortedMap.contains, Store.get?_upsert, ↓reduceIte]
  cases rows.get? (RowKey.metadata p) with
  | none => rfl
  | some stored => cases Store.offersShadowed name <;> rfl

theorem backlog_upsert_keep {name : String} {fresh : RowContent} {merge : RowContent → RowContent}
    (hfresh : fresh.readPosition = none)
    (hmerge : ∀ stored, (merge stored).readPosition = stored.readPosition) :
    backlog (Store.upsert name (RowKey.metadata p) fresh merge rows) p u =
      { backlog rows p u with hasProfile := true } := by
  rw [backlog_upsert]
  unfold backlog
  cases rows.get? (RowKey.metadata p) with
  | none => simp [hfresh]
  | some stored => simp [hmerge]

theorem backlog_upsert_set {name : String} {fresh : RowContent} {merge : RowContent → RowContent}
    {position : UInt64} (hfresh : fresh.readPosition = some position)
    (hmerge : ∀ stored, (merge stored).readPosition = some position) :
    backlog (Store.upsert name (RowKey.metadata p) fresh merge rows) p u =
      { backlog rows p u with
        hasProfile := true
        readPosition :=
          if (backlog rows p u).hasProfile && Store.offersShadowed name then
            (backlog rows p u).readPosition
          else some position } := by
  rw [backlog_upsert]
  unfold backlog SortedMap.contains
  cases rows.get? (RowKey.metadata p) with
  | none => simp [hfresh]
  | some stored => simp [hmerge]

theorem backlog_insert_metadata (content : RowContent) :
    backlog (rows.insert (RowKey.metadata p) content) p u =
      { backlog rows p u with hasProfile := true, readPosition := content.readPosition } := by
  have hview : (rows.insert (RowKey.metadata p) content).view (Place.embedding p) (readBack u) =
      rows.view (Place.embedding p) (readBack u) :=
    SortedMap.view_insert_other (Place.embedding p) (readBack u) rows
      (fun place => place.rowKey_ne_metadata p) content
  simp only [backlog, hview, SortedMap.contains, SortedMap.get?_insert, ↓reduceIte]
  rfl

end Metadata

section Written

variable {t : TableHandle} {now : Instant} {n : Notification} {place : Place}

theorem toOption_keyFor (now : Instant) (n : Notification) :
    (keyFor now n).toOption = (n.place? now).map Place.key := by
  unfold keyFor Notification.place?
  cases htopic : n.topic with
  | some name =>
    simp [Notification.sortKey, htopic, Place.toOption_ofTopic]
  | none =>
    cases hlegacy : n.legacy with
    | true => rfl
    | false =>
      cases hposition : n.position with
      | none => simp [Place.toOption_ofPosition]
      | some position => simp [Notification.sortKey, htopic, hlegacy, hposition,
          Place.toOption_ofPosition]

theorem toOption_sortKey (n : Notification) :
    n.sortKey.toOption =
      if n.isOldest then some (.legacy n.channel n.messageId) else n.sought?.map Place.key := by
  unfold Notification.sortKey Notification.isOldest Notification.sought?
  cases htopic : n.topic with
  | some name => simp [Place.toOption_ofTopic]
  | none =>
    cases hlegacy : n.legacy with
    | true =>
      cases hid : SortKey.isSegment n.messageId <;>
        simp [SortKey.ofMessageId, hid, Except.toOption]
    | false =>
      cases hposition : n.position with
      | none => rfl
      | some position => simp [Place.toOption_ofPosition]

theorem exists_sortKey_iff (n : Notification) :
    (∃ key, n.sortKey = .ok key) ↔ (n.isOldest || n.sought?.isSome) = true := by
  have hsort := toOption_sortKey n
  cases hkey : n.sortKey with
  | ok key =>
    rw [hkey] at hsort
    cases holdest : n.isOldest <;> cases hsought : n.sought? <;>
      simp [holdest, hsought, Except.toOption] at hsort ⊢
  | error error =>
    rw [hkey] at hsort
    cases holdest : n.isOldest <;> cases hsought : n.sought? <;>
      simp [holdest, hsought, Except.toOption] at hsort ⊢

theorem valid_of_sortKey {key : SortKey} (h : n.sortKey = .ok key) : key.Valid := by
  have hsort := toOption_sortKey n
  rw [h] at hsort
  cases holdest : n.isOldest with
  | true =>
    rw [holdest] at hsort
    cases hsort
    exact (Bool.and_eq_true_iff.1 holdest).2
  | false =>
    rw [holdest] at hsort
    obtain ⟨place, -, rfl⟩ := Option.map_eq_some_iff.1 hsort.symm
    exact place.valid_key

theorem rowFor_subscriber (t : TableHandle) (now : Instant) (p : String) (n : Notification)
    (u : SubscriberId) : rowFor t now p { n with subscriber := u } = rowFor t now p n := by
  cases n
  rfl

theorem rowFor_of_place (h : n.place? now = some place) :
    ∃ content, rowFor t now p n = .ok (place.key, ⟨place.rowKey p, content⟩) ∧
      content.timestamp.isSome ∧ content.updateId.isSome ∧
      ∀ u, readBack u place content = some (n.storedAt u place) := by
  have hkey : keyFor now n = .ok place.key := by
    apply toOption_eq_some_iff.1
    rw [toOption_keyFor, h]
    rfl
  unfold rowFor
  rw [hkey]
  exact ⟨_, rfl, rfl, rfl, fun _ => rfl⟩

theorem rowFor_of_no_place (h : n.place? now = none) :
    ∃ error, rowFor t now p n = .error error := by
  obtain ⟨error, hkey⟩ : ∃ error, keyFor now n = .error error := by
    apply toOption_eq_none_iff.1
    rw [toOption_keyFor, h]
    rfl
  unfold rowFor
  rw [hkey]
  exact ⟨error, rfl⟩

end Written

end Mailbox

end PushQueue
