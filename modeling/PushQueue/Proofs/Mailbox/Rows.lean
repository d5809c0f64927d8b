import PushQueue.Proofs.Channels
import PushQueue.Proofs.Mailbox.Requests

/-!
What calls do row by row. A store writes rows of its own, a delete takes one row away at most, and a
call about channels or the read position changes the metadata row of its subscriber, each only its
own part of it. Every other row stays as it is.
-/

namespace PushQueue.Mailbox

variable {t : TableHandle} {now : Instant} {rows : MessageRows} {e : Engine} {store : Store}
  {call : Call} {k : RowKey}

section Stored

def lastAt (k : RowKey) : List MessageRow → Option RowContent
  | [] => none
  | row :: rest => (lastAt k rest).or (if row.key = k then some row.content else none)

theorem get?_insertAll (rows : MessageRows) (written : List MessageRow) (k : RowKey) :
    (insertAll rows written).get? k = (lastAt k written).or (rows.get? k) := by
  induction written generalizing rows with
  | nil => rfl
  | cons row rest ih =>
    refine (ih (rows.insert row.key row.content)).trans ?_
    rw [SortedMap.get?_insert, lastAt, Option.or_assoc]
    by_cases hk : row.key = k <;> simp [hk]

theorem mem_of_lastAt {written : List MessageRow} {content : RowContent}
    (h : lastAt k written = some content) : (⟨k, content⟩ : MessageRow) ∈ written := by
  induction written with
  | nil => cases h
  | cons row rest ih =>
    rw [lastAt, Option.or_eq_some_iff] at h
    rcases h with h | ⟨-, h⟩
    · exact List.mem_cons_of_mem _ (ih h)
    · obtain ⟨rfl, hcontent⟩ := Option.ite_none_right_eq_some.1 h
      exact Option.some.inj hcontent ▸ List.mem_cons_self

def Call.written (t : TableHandle) (now : Instant) : Call → List MessageRow
  | .store n => ((rowFor t now (t.partition n.subscriber) n).map Prod.snd).toOption.toList
  | .storeAll subscriber ns =>
    (ns.mapM fun n => (rowFor t now (t.partition subscriber) n).map Prod.snd).toOption.getD []
  | .delete _ | .markRead .. | .register .. | .unregister .. | .save .. => []

theorem Call.exists_rowFor {row : MessageRow} (h : row ∈ call.written t now) :
    ∃ n key, rowFor t now (t.partition call.subscriber) n = .ok (key, row) := by
  cases call with
  | store n =>
    obtain ⟨⟨key, row'⟩, hrow, rfl⟩ :=
      map_eq_ok_iff.1 (toOption_eq_some_iff.1 (Option.mem_toList.1 h))
    exact ⟨n, key, hrow⟩
  | storeAll subscriber ns =>
    cases hwritten : ns.mapM fun n => (rowFor t now (t.partition subscriber) n).map Prod.snd with
    | error error => simp [written, hwritten, Except.toOption] at h
    | ok written =>
      have hmem : row ∈ written := by simpa [Call.written, hwritten, Except.toOption] using h
      obtain ⟨n, -, hn⟩ := (mem_of_mapM_eq_ok hwritten).1 hmem
      obtain ⟨⟨key, row'⟩, hrow, rfl⟩ := map_eq_ok_iff.1 hn
      exact ⟨n, key, hrow⟩
  | delete | markRead | register | unregister | save => cases h

theorem rowFor_spec {p : String} {n : Notification} {key : SortKey} {row : MessageRow}
    (h : rowFor t now p n = .ok (key, row)) :
    row.key = ⟨p, key.encode⟩ ∧ row.content.updateId = some n.version ∧
      row.content.expiry = t.expiryAt now.seconds (some n.ttl) ∧
      ∀ q, row.key ≠ RowKey.metadata q := by
  obtain ⟨key', -, heq⟩ := map_eq_ok_iff.1 h
  cases heq
  exact ⟨rfl, rfl, rfl, fun q hkey => key.encode_ne_metadata (congrArg RowKey.sortKey hkey)⟩

theorem lastAt_written_metadata (t : TableHandle) (now : Instant) (call : Call) (p : String) :
    lastAt (RowKey.metadata p) (call.written t now) = none := by
  rw [Option.eq_none_iff_forall_ne_some]
  intro content hlast
  obtain ⟨n, key, hrow⟩ := Call.exists_rowFor (mem_of_lastAt hlast)
  exact (rowFor_spec hrow).2.2.2 p rfl

end Stored

section Deleted

theorem get?_deleted (rows : MessageRows) (key k : RowKey) (updateId : Option String) :
    (deleted rows key updateId).2.get? k =
      if key = k ∧ (updateId = none ∨ updateId = (rows.get? k).bind RowContent.updateId) then none
      else rows.get? k := by
  by_cases hk : key = k
  · subst hk
    cases hget : rows.get? key with
    | none => rw [deleted_of_absent hget, hget, ite_self]
    | some content =>
      rw [deleted_of_present hget]
      simp only [true_and, Option.bind_some]
      split
      · rw [SortedMap.get?_erase, if_pos rfl]
      · exact hget
  · rw [get?_deleted_of_ne hk, if_neg fun h => hk h.1]

theorem fst_deleted (rows : MessageRows) (key : RowKey) (updateId : Option String) :
    (deleted rows key updateId).1 =
      decide (updateId = none ∨ updateId = (rows.get? key).bind RowContent.updateId) := by
  cases updateId with
  | none => rfl
  | some id =>
    unfold deleted
    by_cases hid : (rows.get? key).bind RowContent.updateId = some id
    · simp [hid]
    · simp [hid, Ne.symm hid]

def Call.target? (t : TableHandle) : Call → Option RowKey
  | .delete n => n.sortKey.toOption.map fun key => ⟨t.partition n.subscriber, key.encode⟩
  | .store _ | .storeAll .. | .markRead .. | .register .. | .unregister .. | .save .. => none

end Deleted

section Metadata

def keptChannels (row : Option RowContent) : SortedSet String :=
  (row.bind RowContent.channels).getD .empty

def upserted (name : String) (write : RowContent → RowContent) (row : Option RowContent) :
    RowContent :=
  match row with
  | none => write {}
  | some stored => if Store.offersShadowed name then stored else write stored

theorem upserted_eq {name : String} (hname : Store.offersShadowed name = false)
    (write : RowContent → RowContent) (row : Option RowContent) :
    upserted name write row = write (row.getD {}) := by
  cases row with
  | none => rfl
  | some stored => simp [upserted, hname]

theorem get?_upsert_eq (name : String) (write : RowContent → RowContent) (rows : MessageRows)
    (key k : RowKey) :
    (Store.upsert name key (write {}) write rows).get? k =
      if key = k then some (upserted name write (rows.get? k)) else rows.get? k := by
  rw [Store.get?_upsert]
  by_cases hk : key = k
  · subst hk
    rw [if_pos rfl, if_pos rfl]
    cases rows.get? key <;> rfl
  · rw [if_neg hk, if_neg hk]

def withChannels (t : TableHandle) (now : Instant) (update : ChannelUpdate) (ttl : Option UInt64)
    (row : Option RowContent) (stored : RowContent) : RowContent :=
  { stored with
    channels := some (update.apply (keptChannels row))
    expiry := t.expiryAt now.seconds ttl }

theorem get?_upsert_withChannels (update : ChannelUpdate) (ttl : Option UInt64)
    (rows : MessageRows) (p : String) (k : RowKey) :
    let write := withChannels t now update ttl (rows.get? (RowKey.metadata p))
    (Store.upsert t.table (RowKey.metadata p) (write {}) write rows).get? k =
      if RowKey.metadata p = k then
        some (upserted t.table (withChannels t now update ttl (rows.get? k)) (rows.get? k))
      else rows.get? k := by
  refine (get?_upsert_eq t.table _ rows _ k).trans ?_
  by_cases hk : RowKey.metadata p = k
  · subst hk
    rfl
  · rw [if_neg hk, if_neg hk]

def withPosition (t : TableHandle) (now : Instant) (position : UInt64) (stored : RowContent) :
    RowContent :=
  { stored with readPosition := some position, expiry := t.expiryAt now.seconds none }

def Call.onProfile (t : TableHandle) (now : Instant) (call : Call) (row : Option RowContent) :
    Option RowContent :=
  match call with
  | .register _ channel ttl =>
    upserted t.table (withChannels t now (.add (.singleton channel.text)) ttl row) row
  | .unregister _ channel =>
    upserted t.table (withChannels t now (.remove (.singleton channel.text)) none row) row
  | .save _ channels =>
    some { channels := some (Channels.texts channels), expiry := t.expiryAt now.seconds none }
  | .markRead _ position => upserted t.table (withPosition t now position) row
  | .store _ | .storeAll .. | .delete _ => row

theorem metadata_inj {p q : String} : RowKey.metadata p = RowKey.metadata q ↔ p = q :=
  ⟨congrArg RowKey.partition, congrArg RowKey.metadata⟩

end Metadata

section Calls

/-- What an accepted call leaves of the row under a key. -/
def Call.onRow (t : TableHandle) (now : Instant) (k : RowKey) (call : Call)
    (row : Option RowContent) : Option RowContent :=
  match call with
  | .store _ | .storeAll .. => (lastAt k (call.written t now)).or row
  | .delete n =>
    if call.target? t = some k ∧ (n.updateId = none ∨ n.updateId = row.bind RowContent.updateId)
    then none else row
  | .markRead .. | .register .. | .unregister .. | .save .. =>
    if RowKey.metadata (t.partition call.subscriber) = k then call.onProfile t now row else row

def Call.names (t : TableHandle) (now : Instant) (k : RowKey) (call : Call) : Bool :=
  match call with
  | .store _ | .storeAll .. => (lastAt k (call.written t now)).isSome
  | .delete _ => call.target? t = some k
  | .markRead .. | .register .. | .unregister .. | .save .. =>
    RowKey.metadata (t.partition call.subscriber) = k

theorem Call.onRow_of_not_names (h : call.names t now k = false) (row : Option RowContent) :
    call.onRow t now k row = row := by
  cases call with
  | store | storeAll =>
    have hlast := Option.isNone_iff_eq_none.1 (Option.isSome_eq_false_iff.1 h)
    rw [onRow, hlast, Option.none_or]
  | delete n => exact if_neg fun htarget => of_decide_eq_false h htarget.1
  | markRead | register | unregister | save => exact if_neg (of_decide_eq_false h)

theorem rows_of_gives {α : Type} {f : MessageRows → α × MessageRows} {a : α}
    (h : (Action.call (Store.updateMessages t.table f)).Gives e a store)
    (hrows : e.store.messageRows t.table = .ok rows) :
    a = (f rows).1 ∧ store.messageRows t.table = .ok (f rows).2 := by
  obtain ⟨rows₀, hrows₀, ha, rfl⟩ := Store.exists_rows_of_updateMessages h.of_call
  obtain rfl : rows = rows₀ := Except.ok.inj (hrows.symm.trans hrows₀)
  exact ⟨ha, Store.messageRows_setTable t.valid_table e.store _⟩

theorem Call.onRow_of_gives (h : (call.action t now).Gives e () store)
    (hrows : e.store.messageRows t.table = .ok rows) :
    ∃ rows', store.messageRows t.table = .ok rows' ∧
      ∀ k, rows'.get? k = call.onRow t now k (rows.get? k) := by
  cases call with
  | store n =>
    obtain ⟨key, hstore, -⟩ := Action.Gives.of_bind_pure h
    obtain ⟨⟨key, row⟩, hrow, hput⟩ := hstore.of_tracked.of_ofExcept_bind
    obtain ⟨_, hput, -⟩ := Action.Gives.of_bind_pure hput
    have hwritten : (Call.store n).written t now = [row] := by
      rw [written, hrow]
      rfl
    refine ⟨_, (rows_of_gives hput hrows).2, fun k => ?_⟩
    rw [onRow, hwritten]
    exact get?_insertAll rows [row] k
  | storeAll subscriber ns =>
    obtain ⟨written, hwritten, hcall⟩ := h.of_tracked.of_ofExcept_bind
    have hput := Store.putRows_eq hrows written
    obtain ⟨-, rfl⟩ := Prod.mk.inj (Except.ok.inj (hput.symm.trans hcall.of_call))
    have hwritten : (Call.storeAll subscriber ns).written t now = written := by
      rw [Call.written, hwritten]
      rfl
    refine ⟨_, Store.messageRows_setTable t.valid_table e.store _, fun k => ?_⟩
    rw [onRow, hwritten]
    exact get?_insertAll rows written k
  | delete n =>
    obtain ⟨answer, hdelete, -⟩ := Action.Gives.of_bind_pure h
    obtain ⟨key, hkey, hcall⟩ := hdelete.of_tracked.of_ofExcept_bind
    have hdeleted : store.messageRows t.table =
        .ok (deleted rows ⟨t.partition n.subscriber, key.encode⟩ n.updateId).2 :=
      (rows_of_gives hcall hrows).2
    refine ⟨_, hdeleted, fun k => ?_⟩
    rw [get?_deleted, onRow, target?, orStore_eq_ok_iff.1 hkey]
    simp [Except.toOption]
  | markRead subscriber position =>
    obtain ⟨checked, hchecked, hcall⟩ := h.of_tracked.of_ofExcept_bind
    obtain ⟨-, rfl⟩ := SortKey.checkPosition_eq_ok_iff.1 (orStore_eq_ok_iff.1 hchecked)
    exact ⟨_, (rows_of_gives hcall hrows).2,
      get?_upsert_eq t.table (withPosition t now checked) rows _⟩
  | register subscriber channel ttl =>
    obtain ⟨answer, hregister, -⟩ := Action.Gives.of_bind_pure h
    obtain ⟨before, hcall, -⟩ := Action.Gives.of_bind_pure hregister.of_tracked
    exact ⟨_, (rows_of_gives hcall hrows).2, get?_upsert_withChannels _ ttl rows _⟩
  | unregister subscriber channel =>
    obtain ⟨answer, hunregister, -⟩ := Action.Gives.of_bind_pure h
    obtain ⟨before, hcall, -⟩ := Action.Gives.of_bind_pure hunregister.of_tracked
    exact ⟨_, (rows_of_gives hcall hrows).2, get?_upsert_withChannels _ none rows _⟩
  | save subscriber channels =>
    refine ⟨_, (rows_of_gives h.of_tracked hrows).2, fun k => ?_⟩
    exact SortedMap.get?_insert rows _ k _

end Calls

section Profiles

theorem Call.onRow_metadata (t : TableHandle) (now : Instant) (call : Call) (p : String)
    (row : Option RowContent) :
    call.onRow t now (RowKey.metadata p) row =
      if t.partition call.subscriber = p then call.onProfile t now row else row := by
  cases call with
  | store | storeAll => rw [onRow, lastAt_written_metadata, Option.none_or, onProfile, ite_self]
  | delete n =>
    rw [onRow, onProfile, ite_self, if_neg]
    rintro ⟨htarget, -⟩
    obtain ⟨key, -, hkey⟩ := Option.map_eq_some_iff.1 htarget
    exact key.encode_ne_metadata (congrArg RowKey.sortKey hkey)
  | markRead | register | unregister | save => simp only [onRow, metadata_inj]

/-- The rows change as the call says at the metadata row of its subscriber, and at no other
metadata row. -/
def Marks (t : TableHandle) (now : Instant) (call : Call) (rows rows' : MessageRows) : Prop :=
  ∀ p, rows'.get? (RowKey.metadata p) =
    if t.partition call.subscriber = p then call.onProfile t now (rows.get? (RowKey.metadata p))
    else rows.get? (RowKey.metadata p)

theorem Call.marks_of_gives (h : (call.action t now).Gives e () store)
    (hrows : e.store.messageRows t.table = .ok rows) :
    ∃ rows', store.messageRows t.table = .ok rows' ∧ Marks t now call rows rows' := by
  obtain ⟨rows', hrows', hrow⟩ := Call.onRow_of_gives h hrows
  exact ⟨rows', hrows', fun p => (hrow _).trans (call.onRow_metadata t now p _)⟩

end Profiles

end PushQueue.Mailbox
