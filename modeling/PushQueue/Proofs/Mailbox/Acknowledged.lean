import Mathlib.Data.List.Forall2
import PushQueue.Proofs.Mailbox.Refinement

/-!
Deleting what was read. A notification that was read from a row, whatever wrote it, deletes exactly
that row if the row's key is the canonical text of a key that can be built; under any other spelling
that is read, the delete is refused, answers no, or answers yes for a row that is not there.
-/

namespace PushQueue

namespace SortKey

/-- The texts that keys are written as. -/
def IsCanonical (text : String) : Prop := ∃ key : SortKey, key.Valid ∧ key.encode = text

theorem isCanonical_iff {text : String} {key : SortKey} (h : parse text = .ok key) :
    IsCanonical text ↔ key.Valid ∧ key.encode = text := by
  constructor
  · rintro ⟨key', hvalid, rfl⟩
    rw [parse_encode hvalid.readable] at h
    cases h
    exact ⟨hvalid, rfl⟩
  · exact fun hkey => ⟨key, hkey⟩

end SortKey

namespace Mailbox

variable {t : TableHandle} {u : SubscriberId} {e e' : Engine} {rows : MessageRows}
  {row : MessageRow} {n : Notification} {messages : List Notification} {key : SortKey}

section Keys

theorem readRow_eq_ok (h : readRow u row = .ok n) :
    ∃ key, SortKey.parse row.key.sortKey = .ok key ∧ n.subscriber = u ∧
      n.channel = key.channel ∧ n.topic = key.topicName ∧ n.position = key.position ∧
      n.legacy = key.isLegacy ∧ (∀ id ∈ key.messageId, n.messageId = id) ∧
      n.updateId = row.content.updateId := by
  unfold readRow at h
  cases hparse : SortKey.parse row.key.sortKey with
  | error reason =>
    rw [hparse] at h
    cases h
  | ok key =>
    cases htimestamp : row.content.timestamp with
    | none =>
      rw [hparse, htimestamp] at h
      cases h
    | some timestamp =>
      simp only [hparse, htimestamp, KeyError.orStore, bind, Except.bind] at h
      refine ⟨key, rfl, ?_⟩
      cases hid : key.messageId with
      | some id =>
        rw [hid] at h
        cases h
        exact ⟨rfl, rfl, rfl, rfl, rfl, fun _ hmem => Option.some.inj hmem, rfl⟩
      | none =>
        cases hupdateId : row.content.updateId with
        | none =>
          rw [hid, hupdateId] at h
          cases h
        | some updateId =>
          rw [hid, hupdateId] at h
          cases h
          exact ⟨rfl, rfl, rfl, rfl, rfl, by simp, rfl⟩

/-- The key that a notification is deleted by is the one it was read from, if that can be built. -/
theorem sortKey_of_readRow (h : readRow u row = .ok n)
    (hparse : SortKey.parse row.key.sortKey = .ok key) :
    (key.Valid → n.sortKey = .ok key) ∧ (¬ key.Valid → ∃ error, n.sortKey = .error error) := by
  obtain ⟨key', hkey', -, hchannel, htopic, hposition, hlegacy, hid, -⟩ := readRow_eq_ok h
  rw [hparse] at hkey'
  cases hkey'
  unfold Notification.sortKey
  rw [hchannel, htopic, hposition, hlegacy]
  cases key with
  | topic channel name =>
    refine ⟨fun hvalid => if_pos hvalid, fun hnot => ⟨_, if_neg hnot⟩⟩
  | legacy channel messageId =>
    have hid : n.messageId = messageId := hid messageId rfl
    rw [hid]
    refine ⟨fun hvalid => if_pos hvalid, fun hnot => ⟨_, if_neg hnot⟩⟩
  | timestamped position channel =>
    change (position ≤ SortKey.maxPosition → SortKey.ofPosition channel position = _) ∧
      (¬ position ≤ SortKey.maxPosition →
        ∃ error, SortKey.ofPosition channel position = .error error)
    unfold SortKey.ofPosition SortKey.checkPosition
    constructor
    · intro hvalid
      rw [if_neg (UInt64.not_lt.2 hvalid)]
      rfl
    · intro hnot
      rw [if_pos (UInt64.not_le.1 hnot)]
      exact ⟨_, rfl⟩

theorem readRow_ne_metadata {p : String} (h : readRow u row = .ok n) :
    row.key ≠ RowKey.metadata p := by
  intro heq
  obtain ⟨key, hparse, -⟩ := readRow_eq_ok h
  rw [heq, RowKey.metadata, SortKey.parse_metadata] at hparse
  cases hparse

theorem key_of_readRow (hread : readRow u row = .ok n)
    (hp : row.key.partition = t.partition u) (hcanonical : SortKey.IsCanonical row.key.sortKey)
    (hkey : n.sortKey = .ok key) : row.key = ⟨t.partition n.subscriber, key.encode⟩ := by
  obtain ⟨key', hparse, hsubscriber, -⟩ := readRow_eq_ok hread
  obtain ⟨hvalid, hencode⟩ := (SortKey.isCanonical_iff hparse).1 hcanonical
  rw [(sortKey_of_readRow hread hparse).1 hvalid] at hkey
  cases hkey
  rw [hsubscriber, ← hp, hencode]

end Keys

section Deletes

/-- The delete of a notification answers yes, and takes away this row and no other. -/
def DeletesExactly (t : TableHandle) (e : Engine) (rows : MessageRows) (row : MessageRow)
    (n : Notification) : Prop :=
  (delete t n).Gives e true (e.store.setTable t.table (.messages (rows.erase row.key)))

theorem deletesExactly_iff (hrows : e.store.messageRows t.table = .ok rows)
    (hfault : e.fault = none) (hget : rows.get? row.key = some row.content)
    (hpartition : row.key.partition = t.partition u) (hread : readRow u row = .ok n) :
    DeletesExactly t e rows row n ↔ SortKey.IsCanonical row.key.sortKey := by
  have hopen : e.isBlocked = false := by simp [Engine.isBlocked, hfault]
  obtain ⟨key, hparse, hsubscriber, -, -, -, -, -, hupdateId⟩ := readRow_eq_ok hread
  obtain ⟨hbuilt, hrefused⟩ := sortKey_of_readRow hread hparse
  rw [SortKey.isCanonical_iff hparse]
  by_cases hvalid : key.Valid
  · have hgives := gives_delete hrows hopen (hbuilt hvalid)
    rw [hsubscriber, ← hpartition] at hgives
    by_cases hencode : key.encode = row.key.sortKey
    · rw [hencode, deleted_of_present hget, hupdateId, if_pos (.inr rfl)] at hgives
      exact ⟨fun _ => ⟨hvalid, hencode⟩, fun _ => hgives⟩
    · constructor
      · intro hexact
        -- The delete looks elsewhere, so the row is still there.
        have hstore := congrArg (Store.messageRows · t.table) (hgives.unique hexact).2
        simp only [Store.messageRows_setTable t.valid_table] at hstore
        have hne : (⟨row.key.partition, key.encode⟩ : RowKey) ≠ row.key :=
          fun heq => hencode (congrArg RowKey.sortKey heq)
        have hkept : (deleted rows ⟨row.key.partition, key.encode⟩ n.updateId).2.get? row.key =
            rows.get? row.key := get?_deleted_of_ne hne n.updateId
        rw [Except.ok.inj hstore, SortedMap.get?_erase, if_pos rfl, hget] at hkept
        cases hkept
      · exact fun hcanonical => absurd hcanonical.2 hencode
  · obtain ⟨error, herror⟩ := hrefused hvalid
    have hrefuses : (delete t n).Refuses e := by
      apply Action.Refuses.tracked
      apply Action.Refuses.ofExcept_bind
      intro key' hkey'
      rw [orStore_eq_ok_iff.1 hkey'] at herror
      cases herror
    exact ⟨fun hexact => absurd hexact hrefuses.not_gives,
      fun hcanonical => absurd hcanonical.1 hvalid⟩

end Deletes

section Reads

variable {p : String} {limit : Nat} {watermark : Option UInt64}

def Decoded (rows : MessageRows) (p : String) (u : SubscriberId) (messages : List Notification) :
    Prop :=
  ∃ decoded : List MessageRow, List.Forall₂
    (fun row n => (rows.get? row.key = some row.content ∧ row.key.partition = p) ∧
      readRow u row = .ok n) decoded messages

theorem decoded_of_mapM {l : List MessageRow} {range : KeyRange}
    (hl : ∀ row ∈ l, row ∈ Store.select rows p range)
    (h : l.mapM (readRow u) = .ok messages) : Decoded rows p u messages := by
  have hmem : ∀ row ∈ l, rows.get? row.key = some row.content ∧ row.key.partition = p := by
    intro row hrow
    obtain ⟨hget, hpartition, -⟩ := Store.mem_select_iff.1 (hl row hrow)
    exact ⟨hget, hpartition⟩
  refine ⟨l, (List.forall₂_and_left l messages).2 ⟨hmem, ?_⟩⟩
  have hmap : List.Forall₂ (· = ·) (l.map (readRow u)) (messages.map Except.ok) := by
    rw [List.forall₂_eq_eq_eq]
    exact map_eq_of_mapM_eq_ok h
  rw [List.forall₂_map_left_iff, List.forall₂_map_right_iff] at hmap
  exact hmap

theorem mem_splitMetadata {l : List MessageRow} (h : row ∈ (splitMetadata l).2) : row ∈ l := by
  cases l with
  | nil => cases h
  | cons first rest =>
    simp only [splitMetadata] at h
    split at h
    · exact List.mem_cons_of_mem _ h
    · exact h

theorem decoded_fetchAfter {page : Page} (hrows : e.store.messageRows t.table = .ok rows)
    (hfault : e.fault = none)
    (h : Action.run (fetchAfter t u watermark limit) e = (.ok page, e')) :
    Decoded rows (t.partition u) u page.messages := by
  cases hbound : SortKey.timestampLowerBound watermark with
  | error reason =>
    obtain ⟨stats, hrun⟩ : ∃ stats, Action.run (fetchAfter t u watermark limit) e =
        (.error (.invalidKey reason), { e with stats }) := by
      apply Action.run_tracked
      rw [hbound, KeyError.orStore, Action.run_ofExcept_bind]
    rw [hrun] at h
    cases h
  | ok bound =>
    obtain ⟨stats, hrun⟩ := run_fetchAfter u limit hrows hfault hbound
    obtain ⟨hresult, -⟩ := Prod.mk.inj (hrun.symm.trans h)
    obtain ⟨messages, hmapM, rfl⟩ := map_eq_ok_iff.1 hresult
    exact decoded_of_mapM (fun row hrow => List.mem_of_mem_take hrow) hmapM

theorem decoded_fetch {page : Page} (hrows : e.store.messageRows t.table = .ok rows)
    (hfault : e.fault = none) (h : Action.run (fetch t u limit) e = (.ok page, e')) :
    Decoded rows (t.partition u) u page.messages ∧ e'.store = e.store ∧ e'.fault = none := by
  obtain ⟨stats, hrun⟩ := run_fetch u limit hrows hfault
  obtain ⟨hresult, rfl⟩ := Prod.mk.inj (hrun.symm.trans h)
  obtain ⟨messages, hmapM, rfl⟩ := map_eq_ok_iff.1 hresult
  refine ⟨?_, rfl, hfault⟩
  exact decoded_of_mapM (fun row hrow => List.mem_of_mem_take (mem_splitMetadata hrow)) hmapM

theorem decoded_queue {delivery : Delivery} (hrows : e.store.messageRows t.table = .ok rows)
    (hfault : e.fault = none)
    (h : Action.run (check.queue t u limit watermark) e = (.ok delivery, e')) :
    Decoded rows (t.partition u) u delivery.messages := by
  unfold check.queue at h
  rw [Action.run_bind] at h
  split at h
  next page e₁ hpage =>
    cases h
    exact decoded_fetchAfter hrows hfault hpage
  next => cases h

theorem decoded_check {delivery : Delivery} {includeTopics : Bool}
    (hrows : e.store.messageRows t.table = .ok rows) (hfault : e.fault = none)
    (h : Action.run (check t u includeTopics watermark limit) e = (.ok delivery, e')) :
    Decoded rows (t.partition u) u delivery.messages := by
  unfold check at h
  cases includeTopics with
  | false => exact decoded_queue hrows hfault h
  | true =>
    simp only [↓reduceIte] at h
    rw [Action.run_bind] at h
    split at h
    next page e₁ hpage =>
      obtain ⟨hdecoded, hstore, hfault₁⟩ := decoded_fetch hrows hfault hpage
      split at h
      · rw [← hstore] at hrows
        exact decoded_queue hrows hfault₁ h
      · cases h
        exact hdecoded
    next => cases h

/-- One of the three reads gives these notifications. -/
inductive Fetched (t : TableHandle) (u : SubscriberId) (e : Engine) : List Notification → Prop
  | topics {limit : Nat} {page : Page} {e' : Engine}
      (h : Action.run (fetch t u limit) e = (.ok page, e')) : Fetched t u e page.messages
  | queue {watermark : Option UInt64} {limit : Nat} {page : Page} {e' : Engine}
      (h : Action.run (fetchAfter t u watermark limit) e = (.ok page, e')) :
      Fetched t u e page.messages
  | delivery {includeTopics : Bool} {watermark : Option UInt64} {limit : Nat}
      {delivery : Delivery} {e' : Engine}
      (h : Action.run (check t u includeTopics watermark limit) e = (.ok delivery, e')) :
      Fetched t u e delivery.messages

theorem Fetched.decoded (h : Fetched t u e messages)
    (hrows : e.store.messageRows t.table = .ok rows) (hfault : e.fault = none) :
    Decoded rows (t.partition u) u messages := by
  cases h with
  | topics h => exact (decoded_fetch hrows hfault h).1
  | queue h => exact decoded_fetchAfter hrows hfault h
  | delivery h => exact decoded_check hrows hfault h

/-- Whatever a table holds, each notification that is read comes from a row of the partition, and
its delete answers yes and takes away that row and no other if and only if the row's key is
canonical. -/
theorem fetched_deletes_row_iff (hrows : e.store.messageRows t.table = .ok rows)
    (hfault : e.fault = none) (h : Fetched t u e messages) :
    ∃ decoded : List MessageRow, List.Forall₂
      (fun row n => rows.get? row.key = some row.content ∧ row.key.partition = t.partition u ∧
        readRow u row = .ok n ∧
        (DeletesExactly t e rows row n ↔ SortKey.IsCanonical row.key.sortKey))
      decoded messages := by
  obtain ⟨decoded, hdecoded⟩ := h.decoded hrows hfault
  refine ⟨decoded, hdecoded.imp ?_⟩
  rintro row n ⟨⟨hget, hpartition⟩, hread⟩
  exact ⟨hget, hpartition, hread, deletesExactly_iff hrows hfault hget hpartition hread⟩

def oneRowTable (sortKey : String) (updateId : Option String) : MessageRows :=
  SortedMap.empty.insert ⟨januaryTable.partition ⟨⟨1⟩⟩, sortKey⟩ { timestamp := some 0, updateId }

def oneRowEngine (sortKey : String) (updateId : Option String) : Engine where
  store := ⟨SortedMap.empty.insert januaryTable.table (.messages (oneRowTable sortKey updateId))⟩

def fifthNotification : Notification where
  subscriber := ⟨⟨1⟩⟩
  channel := ⟨⟨0xabcd1234000040008000000000000000⟩⟩
  timestamp := 0
  position := some 5
  source := .stored
  messageId := "m"
  updateId := some "m"

def oldestNotification : Notification where
  subscriber := ⟨⟨1⟩⟩
  channel := ⟨⟨0xabcd1234000040008000000000000000⟩⟩
  timestamp := 0
  source := .stored
  messageId := "m"
  legacy := true

theorem fetched_deletes_row_iff_january :
    Fetched januaryTable ⟨⟨1⟩⟩ (oneRowEngine "02:5:abcd1234000040008000000000000000" (some "m"))
      [fifthNotification] ∧
    ∃ row, (oneRowTable "02:5:abcd1234000040008000000000000000" (some "m")).get? row.key =
        some row.content ∧
      (DeletesExactly januaryTable
          (oneRowEngine "02:5:abcd1234000040008000000000000000" (some "m"))
          (oneRowTable "02:5:abcd1234000040008000000000000000" (some "m")) row
          fifthNotification ↔
        SortKey.IsCanonical row.key.sortKey) := by
  have hread : (Action.run (fetchAfter januaryTable ⟨⟨1⟩⟩ none 10)
      (oneRowEngine "02:5:abcd1234000040008000000000000000" (some "m"))).1 =
        .ok ⟨some 5, [fifthNotification]⟩ := by
    decide +kernel
  have hrows : (oneRowEngine "02:5:abcd1234000040008000000000000000"
      (some "m")).store.messageRows januaryTable.table =
        .ok (oneRowTable "02:5:abcd1234000040008000000000000000" (some "m")) := by
    decide +kernel
  have hfetched : Fetched januaryTable ⟨⟨1⟩⟩
      (oneRowEngine "02:5:abcd1234000040008000000000000000" (some "m")) [fifthNotification] :=
    .queue (Prod.ext hread rfl)
  obtain ⟨decoded, hdecoded⟩ := fetched_deletes_row_iff hrows rfl hfetched
  obtain ⟨row, rest, hrow, -, -⟩ := List.forall₂_cons_right_iff.1 hdecoded
  exact ⟨hfetched, row, hrow.1, hrow.2.2.2⟩

/-- The channel of an oldest row is read without hyphens, but then its delete answers yes and leaves
the row; the position of a queued row is read without padding, but then its delete answers no. -/
theorem delete_of_other_spelling_keeps :
    (Action.run (fetchAfter januaryTable ⟨⟨1⟩⟩ none 10)
      (oneRowEngine "abcd1234000040008000000000000000:m" none)).1 =
        .ok ⟨none, [oldestNotification]⟩ ∧
    (Action.run (delete januaryTable oldestNotification)
      (oneRowEngine "abcd1234000040008000000000000000:m" none)).1 = .ok true ∧
    (Action.run (delete januaryTable oldestNotification)
      (oneRowEngine "abcd1234000040008000000000000000:m" none)).2.store =
        (oneRowEngine "abcd1234000040008000000000000000:m" none).store ∧
    (Action.run (fetchAfter januaryTable ⟨⟨1⟩⟩ none 10)
      (oneRowEngine "02:5:abcd1234000040008000000000000000" (some "m"))).1 =
        .ok ⟨some 5, [fifthNotification]⟩ ∧
    (Action.run (delete januaryTable fifthNotification)
      (oneRowEngine "02:5:abcd1234000040008000000000000000" (some "m"))).1 = .ok false := by
  decide +kernel

end Reads

end Mailbox

end PushQueue
