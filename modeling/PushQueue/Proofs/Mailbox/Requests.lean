import PushQueue.Channels
import PushQueue.Proofs.Engine
import PushQueue.Proofs.Mailbox.Backlog
import PushQueue.Proofs.Store

/-!
Requests that change a message table, and what they do to a backlog. A request is admitted unless a
key cannot be built from it or the failure to come hits its engine call; an admitted one does to the
rows what its step does to the backlog, and a refused one does nothing.
-/

namespace PushQueue.Mailbox

inductive Call where
  | store (n : Notification)
  | storeAll (subscriber : SubscriberId) (ns : List Notification)
  | delete (n : Notification)
  | markRead (subscriber : SubscriberId) (position : UInt64)
  | register (subscriber : SubscriberId) (channel : ChannelId) (ttl : Option UInt64)
  | unregister (subscriber : SubscriberId) (channel : ChannelId)
  | save (subscriber : SubscriberId) (channels : SortedSet ChannelId)

namespace Call

def subscriber : Call → SubscriberId
  | .store n | .delete n => n.subscriber
  | .storeAll subscriber _ | .markRead subscriber _ | .register subscriber _ _
  | .unregister subscriber _ | .save subscriber _ => subscriber

def action (t : TableHandle) (now : Instant) : Call → Action Unit
  | .store n => Mailbox.store t now n >>= fun _ => pure ()
  | .storeAll subscriber ns => Mailbox.storeAll t now subscriber ns
  | .delete n => Mailbox.delete t n >>= fun _ => pure ()
  | .markRead subscriber position => Mailbox.markRead t now subscriber position
  | .register subscriber channel ttl =>
    Channels.register t now subscriber channel ttl >>= fun _ => pure ()
  | .unregister subscriber channel =>
    Channels.unregister t now subscriber channel >>= fun _ => pure ()
  | .save subscriber channels => Channels.save t now subscriber channels

def isWellFormed (now : Instant) : Call → Bool
  | .store n => (n.place? now).isSome
  | .storeAll _ ns => ns.all fun n => (n.place? now).isSome
  | .delete n => n.isOldest || n.sought?.isSome
  | .markRead _ position => position ≤ SortKey.maxPosition
  | .register .. | .unregister .. | .save .. => true

end Call

/-- A call with the reading of the clock at which it is served, and the failure to come then. -/
structure Request where
  now : Instant
  fault : Option Fault := none
  call : Call

namespace Request

def isAdmitted (r : Request) : Bool :=
  !(r.fault.any fun fault => fault.after = 0) && r.call.isWellFormed r.now

def serve (t : TableHandle) (r : Request) (e : Engine) : Except StoreError Unit × Engine :=
  (r.call.action t r.now).run { e with fault := r.fault }

end Request

end Mailbox

namespace Backlog

def put (b : Backlog) (u : SubscriberId) (now : Instant) (n : Notification) : Backlog :=
  match n.place? now with
  | some place => { b with messages := b.messages.insert place (n.storedAt u place) }
  | none => b

/-- Take away the notification at a place, under a condition only if it has that version. -/
def remove (b : Backlog) (n : Notification) : Backlog :=
  match n.sought? with
  | some place =>
    match b.messages.get? place with
    | some stored =>
      if n.updateId = none ∨ n.updateId = stored.updateId then
        { b with messages := b.messages.erase place }
      else b
    | none => b
  | none => b

/-- What an admitted request does to the backlog of a subscriber. -/
def step (t : TableHandle) (u : SubscriberId) (b : Backlog) (r : Mailbox.Request) : Backlog :=
  if t.partition r.call.subscriber = t.partition u then
    match r.call with
    | .store n => b.put u r.now n
    | .storeAll _ ns => ns.foldl (fun b n => b.put u r.now n) b
    | .delete n => b.remove n
    | .markRead _ position =>
      { b with
        hasProfile := true
        readPosition :=
          if b.hasProfile && Store.offersShadowed t.table then b.readPosition else some position }
    | .register .. | .unregister .. => { b with hasProfile := true }
    | .save .. => { b with hasProfile := true, readPosition := none }
  else b

end Backlog

namespace Mailbox

variable {t : TableHandle} {u : SubscriberId} {now : Instant} {rows rows' : MessageRows}
  {p q : String} {n : Notification} {r : Request}

def Follows (t : TableHandle) (u : SubscriberId) (r : Request) (rows rows' : MessageRows) : Prop :=
  Tidy rows (t.partition u) → Tidy rows' (t.partition u) ∧
    backlog rows' (t.partition u) u = (backlog rows (t.partition u) u).step t u r

theorem follows_of_ne (hne : t.partition r.call.subscriber ≠ t.partition u)
    (h : SamePartition rows rows' (t.partition u)) : Follows t u r rows rows' := by
  intro htidy
  refine ⟨h.tidy htidy, ?_⟩
  unfold Backlog.step
  rw [if_neg hne, h.backlog]

section Writes

abbrev insertAll (rows : MessageRows) (written : List MessageRow) : MessageRows :=
  written.foldl (fun rows row => rows.insert row.key row.content) rows

theorem samePartition_insertAll {written : List MessageRow}
    (h : ∀ row ∈ written, row.key.partition = q) (hne : q ≠ p) :
    SamePartition rows (insertAll rows written) p := by
  induction written generalizing rows with
  | nil => exact fun _ _ => rfl
  | cons row rest ih =>
    obtain ⟨hrow, hrest⟩ := List.forall_mem_cons.1 h
    intro k hk
    have hstep : SamePartition rows (rows.insert row.key row.content) p :=
      samePartition_insert (hrow ▸ hne) row.content
    exact (ih hrest k hk).trans (hstep k hk)

def Written (now : Instant) (q : String) (ns : List Notification) (written : List MessageRow) :
    Prop :=
  (∀ row ∈ written, row.key.partition = q) ∧
    ∀ (u : SubscriberId) (rows : MessageRows), Tidy rows q → Tidy (insertAll rows written) q ∧
      backlog (insertAll rows written) q u =
        ns.foldl (fun b n => b.put u now n) (backlog rows q u)

theorem Written.cons {place : Place} {content : RowContent} {ns : List Notification}
    {written : List MessageRow} (hplace : n.place? now = some place)
    (htimestamp : content.timestamp.isSome) (hupdateId : content.updateId.isSome)
    (hread : ∀ u, readBack u place content = some (n.storedAt u place))
    (h : Written now q ns written) :
    Written now q (n :: ns) (⟨place.rowKey q, content⟩ :: written) := by
  refine ⟨List.forall_mem_cons.2 ⟨rfl, h.1⟩, fun u rows htidy => ?_⟩
  have hput : backlog (rows.insert (place.rowKey q) content) q u =
      (backlog rows q u).put u now n := by
    rw [backlog_insert (hread u), Backlog.put, hplace]
  obtain ⟨htidy', hbacklog⟩ := h.2 u _ (htidy.insert place htimestamp hupdateId)
  rw [hput] at hbacklog
  exact ⟨htidy', hbacklog⟩

theorem written_nil (now : Instant) (q : String) : Written now q [] [] :=
  ⟨by simp, fun _ _ htidy => ⟨htidy, rfl⟩⟩

theorem exists_row (t : TableHandle) (q : String) (h : (n.place? now).isSome) :
    ∃ key row, rowFor t now q n = .ok (key, row) ∧ Written now q [n] [row] := by
  obtain ⟨place, hplace⟩ := Option.isSome_iff_exists.1 h
  obtain ⟨content, hrow, htimestamp, hupdateId, hread⟩ := rowFor_of_place (t := t) (p := q) hplace
  exact ⟨_, _, hrow, .cons hplace htimestamp hupdateId hread (written_nil now q)⟩

theorem exists_rows (t : TableHandle) (q : String) {ns : List Notification}
    (h : ∀ n ∈ ns, (n.place? now).isSome) :
    ∃ written, (ns.mapM fun n => (rowFor t now q n).map Prod.snd) = .ok written ∧
      Written now q ns written := by
  induction ns with
  | nil => exact ⟨[], rfl, written_nil now q⟩
  | cons n ns ih =>
    obtain ⟨hn, hns⟩ := List.forall_mem_cons.1 h
    obtain ⟨place, hplace⟩ := Option.isSome_iff_exists.1 hn
    obtain ⟨content, hrow, htimestamp, hupdateId, hread⟩ := rowFor_of_place (t := t) (p := q) hplace
    obtain ⟨written, hwritten, hrows⟩ := ih hns
    refine ⟨_, ?_, .cons hplace htimestamp hupdateId hread hrows⟩
    rw [List.mapM_cons, hrow, hwritten]
    rfl

theorem Written.follows {ns : List Notification} {written : List MessageRow}
    (h : Written r.now (t.partition r.call.subscriber) ns written)
    (hstep : t.partition r.call.subscriber = t.partition u → ∀ b : Backlog,
      b.step t u r = ns.foldl (fun b n => b.put u r.now n) b) :
    Follows t u r rows (insertAll rows written) := by
  by_cases hp : t.partition r.call.subscriber = t.partition u
  · intro htidy
    rw [hp] at h
    rw [hstep hp]
    exact h.2 u rows htidy
  · exact follows_of_ne hp (samePartition_insertAll h.1 hp)

end Writes

section Deletes

def deleted (rows : MessageRows) (key : RowKey) (updateId : Option String) : Bool × MessageRows :=
  match updateId with
  | none => (true, rows.erase key)
  | some id =>
    if (rows.get? key).bind RowContent.updateId = some id then (true, rows.erase key)
    else (false, rows)

theorem get?_deleted_of_ne {k k' : RowKey} (h : k ≠ k') (updateId : Option String) :
    (deleted rows k updateId).2.get? k' = rows.get? k' := by
  have herase : (rows.erase k).get? k' = rows.get? k' := by
    rw [SortedMap.get?_erase, if_neg h]
  cases updateId with
  | none => exact herase
  | some id =>
    unfold deleted
    simp only
    split
    · exact herase
    · rfl

theorem get?_of_get?_deleted {k k' : RowKey} {updateId : Option String} {content : RowContent}
    (h : (deleted rows k updateId).2.get? k' = some content) : rows.get? k' = some content := by
  by_cases hk : k = k'
  · have herase : (rows.erase k).get? k' = none := by
      rw [SortedMap.get?_erase, if_pos hk]
    unfold deleted at h
    split at h
    · rw [herase] at h
      cases h
    · split at h
      · rw [herase] at h
        cases h
      · exact h
  · rwa [get?_deleted_of_ne hk] at h

theorem samePartition_deleted {k : RowKey} (h : k.partition ≠ p) (updateId : Option String) :
    SamePartition rows (deleted rows k updateId).2 p := by
  intro k' hk'
  apply get?_deleted_of_ne
  rintro rfl
  exact h hk'

theorem deleted_of_absent {k : RowKey} (h : rows.get? k = none) (updateId : Option String) :
    (deleted rows k updateId).2 = rows := by
  cases updateId with
  | none => exact SortedMap.erase_of_get?_eq_none rows h
  | some id => simp [deleted, h]

theorem deleted_of_present {k : RowKey} {content : RowContent} (h : rows.get? k = some content)
    (updateId : Option String) :
    deleted rows k updateId =
      if updateId = none ∨ updateId = content.updateId then (true, rows.erase k)
      else (false, rows) := by
  cases updateId with
  | none => rfl
  | some id => simp [deleted, h, eq_comm]

theorem backlog_deleted {place : Place} (htidy : Tidy rows p) (hplace : n.sought? = some place) :
    backlog (deleted rows (place.rowKey p) n.updateId).2 p u = (backlog rows p u).remove n := by
  have hlookup : (backlog rows p u).messages.get? place =
      (rows.get? (place.rowKey p)).bind (readBack u place) :=
    SortedMap.get?_view (Place.embedding p) (readBack u) rows place
  unfold Backlog.remove
  rw [hplace]
  cases hget : rows.get? (place.rowKey p) with
  | none =>
    rw [hget] at hlookup
    rw [deleted_of_absent hget]
    simp only [hlookup, Option.bind_none]
  | some content =>
    obtain ⟨stored, hstored⟩ := htidy.exists_readBack (u := u) hget
    have hversion : stored.updateId = content.updateId := updateId_of_readBack hstored
    rw [hget, Option.bind_some, hstored] at hlookup
    rw [deleted_of_present hget]
    simp only [hlookup, hversion]
    split
    · exact backlog_erase place
    · rfl

theorem tidy_deleted {k : RowKey} (htidy : Tidy rows p) (updateId : Option String) :
    Tidy (deleted rows k updateId).2 p := by
  cases updateId with
  | none => exact htidy.erase k
  | some id =>
    unfold deleted
    simp only
    split
    · exact htidy.erase k
    · exact htidy

theorem follows_delete {key : SortKey} {fault : Option Fault} (hkey : n.sortKey = .ok key) :
    Follows t u ⟨now, fault, .delete n⟩ rows
      (deleted rows ⟨t.partition n.subscriber, key.encode⟩ n.updateId).2 := by
  by_cases hp : t.partition n.subscriber = t.partition u
  · intro htidy
    refine ⟨tidy_deleted htidy n.updateId, ?_⟩
    unfold Backlog.step
    simp only [Call.subscriber, hp, ↓reduceIte]
    have hsort := toOption_sortKey n
    rw [hkey] at hsort
    cases holdest : n.isOldest with
    | true =>
      rw [holdest] at hsort
      cases hsort
      obtain ⟨⟨htopic, hlegacy⟩, hid⟩ : (n.topic = none ∧ n.legacy = true) ∧
          SortKey.isSegment n.messageId = true := by
        simpa [Notification.isOldest] using holdest
      have hnone : n.sought? = none := by
        simp [Notification.sought?, htopic, hlegacy]
      rw [deleted_of_absent (htidy.get?_legacy hid)]
      simp only [Backlog.remove, hnone]
    | false =>
      rw [holdest] at hsort
      obtain ⟨place, hplace, rfl⟩ := Option.map_eq_some_iff.1 hsort.symm
      exact backlog_deleted htidy hplace
  · exact follows_of_ne hp (samePartition_deleted hp n.updateId)

end Deletes

section Metadata

theorem follows_upsert {fresh : RowContent} {merge : RowContent → RowContent}
    (h : t.partition r.call.subscriber = t.partition u →
      backlog (Store.upsert t.table (RowKey.metadata (t.partition u)) fresh merge rows)
        (t.partition u) u = (backlog rows (t.partition u) u).step t u r) :
    Follows t u r rows
      (Store.upsert t.table (RowKey.metadata (t.partition r.call.subscriber)) fresh merge
        rows) := by
  by_cases hp : t.partition r.call.subscriber = t.partition u
  · intro htidy
    rw [hp]
    exact ⟨htidy.upsert t.table fresh merge, h hp⟩
  · exact follows_of_ne hp (samePartition_upsert hp t.table fresh merge)

theorem follows_save {subscriber : SubscriberId} {channels : SortedSet ChannelId}
    {fault : Option Fault} {content : RowContent} (h : content.readPosition = none) :
    Follows t u ⟨now, fault, .save subscriber channels⟩ rows
      (rows.insert (RowKey.metadata (t.partition subscriber)) content) := by
  by_cases hp : t.partition subscriber = t.partition u
  · intro htidy
    rw [hp]
    refine ⟨htidy.insert_metadata content, ?_⟩
    unfold Backlog.step
    simp only [Call.subscriber, hp, ↓reduceIte]
    rw [backlog_insert_metadata, h]
  · exact follows_of_ne hp (samePartition_insert hp content)

end Metadata

section Actions

variable {e : Engine}

theorem gives_update {α : Type} (hrows : e.store.messageRows t.table = .ok rows)
    (hopen : e.isBlocked = false) (f : MessageRows → α × MessageRows) :
    (Action.call (Store.updateMessages t.table f)).Gives e (f rows).1
      (e.store.setTable t.table (.messages (f rows).2)) :=
  Action.gives_call hopen (Store.updateMessages_eq hrows f)

theorem gives_store {key : SortKey} {row : MessageRow}
    (hrows : e.store.messageRows t.table = .ok rows) (hopen : e.isBlocked = false)
    (hrow : rowFor t now (t.partition n.subscriber) n = .ok (key, row)) :
    (store t now n).Gives e key
      (e.store.setTable t.table (.messages (rows.insert row.key row.content))) := by
  apply Action.Gives.tracked
  apply Action.Gives.ofExcept_bind hrow
  apply Action.Gives.bind_pure (gives_update hrows hopen _)

theorem gives_storeAll {subscriber : SubscriberId} {ns : List Notification}
    {written : List MessageRow} (hrows : e.store.messageRows t.table = .ok rows)
    (hopen : e.isBlocked = false)
    (hwritten : (ns.mapM fun n => (rowFor t now (t.partition subscriber) n).map Prod.snd) =
      .ok written) :
    (storeAll t now subscriber ns).Gives e ()
      (e.store.setTable t.table (.messages (insertAll rows written))) := by
  apply Action.Gives.tracked
  apply Action.Gives.ofExcept_bind hwritten
  exact Action.gives_call hopen (Store.putRows_eq hrows written)

theorem gives_delete {key : SortKey} (hrows : e.store.messageRows t.table = .ok rows)
    (hopen : e.isBlocked = false) (hkey : n.sortKey = .ok key) :
    (delete t n).Gives e (deleted rows ⟨t.partition n.subscriber, key.encode⟩ n.updateId).1
      (e.store.setTable t.table
        (.messages (deleted rows ⟨t.partition n.subscriber, key.encode⟩ n.updateId).2)) := by
  apply Action.Gives.tracked
  apply Action.Gives.ofExcept_bind (orStore_eq_ok_iff.2 hkey)
  exact gives_update hrows hopen fun rows =>
    deleted rows ⟨t.partition n.subscriber, key.encode⟩ n.updateId

theorem gives_markRead (now : Instant) (subscriber : SubscriberId) {position : UInt64}
    (hrows : e.store.messageRows t.table = .ok rows) (hopen : e.isBlocked = false)
    (hposition : position ≤ SortKey.maxPosition) :
    ∃ fresh merge, fresh.readPosition = some position ∧
      (∀ stored, (merge stored : RowContent).readPosition = some position) ∧
      (markRead t now subscriber position).Gives e ()
        (e.store.setTable t.table (.messages
          (Store.upsert t.table (RowKey.metadata (t.partition subscriber)) fresh merge rows))) := by
  have hcheck : KeyError.orStore (SortKey.checkPosition position) = .ok position :=
    orStore_eq_ok_iff.2 (SortKey.checkPosition_eq_ok_iff.2 ⟨hposition, rfl⟩)
  let write (row : RowContent) : RowContent :=
    { row with readPosition := some position, expiry := t.expiryAt now.seconds none }
  refine ⟨write {}, write, rfl, fun _ => rfl, ?_⟩
  apply Action.Gives.tracked
  apply Action.Gives.ofExcept_bind hcheck
  exact gives_update hrows hopen fun rows =>
    ((), Store.upsert t.table (RowKey.metadata (t.partition subscriber)) (write {}) write rows)

theorem gives_updateChannels (partition : String) (update : ChannelUpdate) (expiry : UInt64)
    (hrows : e.store.messageRows t.table = .ok rows) (hopen : e.isBlocked = false) :
    ∃ before fresh merge, (fresh : RowContent).readPosition = none ∧
      (∀ stored, (merge stored : RowContent).readPosition = stored.readPosition) ∧
      (Action.call (Store.updateChannels t.table partition update expiry)).Gives e before
        (e.store.setTable t.table (.messages
          (Store.upsert t.table (RowKey.metadata partition) fresh merge rows))) := by
  let before := ((rows.get? (RowKey.metadata partition)).bind RowContent.channels).getD .empty
  let write (row : RowContent) : RowContent :=
    { row with channels := some (update.apply before), expiry }
  refine ⟨before, write {}, write, rfl, fun _ => rfl, ?_⟩
  apply Action.gives_call hopen
  unfold Store.updateChannels
  rw [Store.updateMessages_eq hrows]

theorem gives_save (now : Instant) (subscriber : SubscriberId) (channels : SortedSet ChannelId)
    (hrows : e.store.messageRows t.table = .ok rows) (hopen : e.isBlocked = false) :
    ∃ content : RowContent, content.readPosition = none ∧
      (Channels.save t now subscriber channels).Gives e ()
        (e.store.setTable t.table (.messages
          (rows.insert (RowKey.metadata (t.partition subscriber)) content))) := by
  let content : RowContent :=
    { channels := some (SortedSet.ofList (channels.keys.map Ident.text))
      expiry := t.expiryAt now.seconds none }
  refine ⟨content, rfl, ?_⟩
  apply Action.Gives.tracked
  exact gives_update hrows hopen fun rows =>
    ((), rows.insert (RowKey.metadata (t.partition subscriber)) content)

end Actions

section Serving

variable {e : Engine}

theorem Call.exists_rows (hrows : e.store.messageRows t.table = .ok rows)
    (hopen : e.isBlocked = false) (h : r.call.isWellFormed r.now = true) :
    ∃ store' rows', (r.call.action t r.now).Gives e () store' ∧
      store'.messageRows t.table = .ok rows' ∧ ∀ u, Follows t u r rows rows' := by
  obtain ⟨now, fault, call⟩ := r
  have htable := Store.messageRows_setTable t.valid_table e.store
  cases call with
  | store n =>
    obtain ⟨key, row, hrow, hwritten⟩ := exists_row t (t.partition n.subscriber) h
    have hgives := gives_store hrows hopen hrow
    refine ⟨_, _, hgives.bind_pure _, htable _, fun u => ?_⟩
    apply Written.follows (r := ⟨now, fault, .store n⟩) hwritten
    intro hp b
    unfold Backlog.step
    rw [if_pos hp]
    rfl
  | storeAll subscriber ns =>
    have hns : ∀ n ∈ ns, (n.place? now).isSome := List.all_eq_true.1 h
    obtain ⟨written, hwritten, hfollows⟩ := Mailbox.exists_rows t (t.partition subscriber) hns
    refine ⟨_, _, gives_storeAll hrows hopen hwritten, htable _, fun u => ?_⟩
    apply Written.follows (r := ⟨now, fault, .storeAll subscriber ns⟩) hfollows
    intro hp b
    unfold Backlog.step
    rw [if_pos hp]
  | delete n =>
    obtain ⟨key, hkey⟩ := (exists_sortKey_iff n).2 h
    have hgives := gives_delete hrows hopen hkey
    exact ⟨_, _, hgives.bind_pure _, htable _, fun u => follows_delete hkey⟩
  | markRead subscriber position =>
    obtain ⟨fresh, merge, hfresh, hmerge, hgives⟩ :=
      gives_markRead now subscriber hrows hopen (of_decide_eq_true h)
    refine ⟨_, _, hgives, htable _, fun u => follows_upsert fun hp => ?_⟩
    unfold Backlog.step
    rw [if_pos hp, backlog_upsert_set hfresh hmerge]
  | register subscriber channel ttl =>
    obtain ⟨before, fresh, merge, hfresh, hmerge, hgives⟩ :=
      gives_updateChannels (t.partition subscriber)
        (.add (SortedSet.singleton channel.text)) (t.expiryAt now.seconds ttl) hrows hopen
    refine ⟨_, _, ((hgives.bind_pure _).tracked _).bind_pure _, htable _,
      fun u => follows_upsert fun hp => ?_⟩
    unfold Backlog.step
    rw [if_pos hp, backlog_upsert_keep hfresh hmerge]
  | unregister subscriber channel =>
    obtain ⟨before, fresh, merge, hfresh, hmerge, hgives⟩ :=
      gives_updateChannels (t.partition subscriber)
        (.remove (SortedSet.singleton channel.text)) (t.expiryAt now.seconds none) hrows hopen
    refine ⟨_, _, ((hgives.bind_pure _).tracked _).bind_pure _, htable _,
      fun u => follows_upsert fun hp => ?_⟩
    unfold Backlog.step
    rw [if_pos hp, backlog_upsert_keep hfresh hmerge]
  | save subscriber channels =>
    obtain ⟨content, hcontent, hgives⟩ :=
      gives_save now subscriber channels hrows hopen
    exact ⟨_, _, hgives, htable _, fun u => follows_save hcontent⟩

theorem Call.refuses {call : Call}
    (h : e.isBlocked = true ∨ call.isWellFormed now = false) :
    (call.action t now).Refuses e := by
  have hblocked {α : Type} (hwf : call.isWellFormed now = true)
      (f : Store → Except StoreError (α × Store)) : (Action.call f).Refuses e := by
    rcases h with h | h
    · exact Action.refuses_call h f
    · rw [hwf] at h
      cases h
  cases call with
  | store n =>
    apply Action.Refuses.bind
    apply Action.Refuses.tracked
    apply Action.Refuses.ofExcept_bind
    rintro ⟨key, row⟩ hrow
    apply Action.Refuses.bind
    apply hblocked
    cases hplace : n.place? now with
    | none =>
      obtain ⟨error, herror⟩ := rowFor_of_no_place (t := t) (p := t.partition n.subscriber) hplace
      rw [herror] at hrow
      cases hrow
    | some place => simp [isWellFormed, hplace]
  | storeAll subscriber ns =>
    apply Action.Refuses.tracked
    apply Action.Refuses.ofExcept_bind
    intro written hwritten
    apply hblocked
    apply List.all_eq_true.2
    intro n hn
    have hmem : (rowFor t now (t.partition subscriber) n).map Prod.snd ∈
        written.map Except.ok := by
      rw [← map_eq_of_mapM_eq_ok hwritten]
      exact List.mem_map_of_mem hn
    obtain ⟨row, -, hrow⟩ := List.mem_map.1 hmem
    cases hplace : n.place? now with
    | none =>
      obtain ⟨error, herror⟩ := rowFor_of_no_place (t := t) (p := t.partition subscriber) hplace
      rw [herror] at hrow
      cases hrow
    | some place => rfl
  | delete n =>
    apply Action.Refuses.bind
    apply Action.Refuses.tracked
    apply Action.Refuses.ofExcept_bind
    intro key hkey
    apply hblocked
    exact (exists_sortKey_iff n).1 ⟨key, orStore_eq_ok_iff.1 hkey⟩
  | markRead subscriber position =>
    apply Action.Refuses.tracked
    apply Action.Refuses.ofExcept_bind
    intro checked hchecked
    apply hblocked
    exact decide_eq_true (SortKey.checkPosition_eq_ok_iff.1 (orStore_eq_ok_iff.1 hchecked)).1
  | register subscriber channel ttl =>
    exact (((hblocked rfl _).bind _).tracked _).bind _
  | unregister subscriber channel =>
    exact (((hblocked rfl _).bind _).tracked _).bind _
  | save subscriber channels => exact (hblocked rfl _).tracked _

theorem Request.serve_admitted (hrows : e.store.messageRows t.table = .ok rows)
    (h : r.isAdmitted = true) :
    ∃ e' rows', r.serve t e = (.ok (), e') ∧ e'.store.messageRows t.table = .ok rows' ∧
      ∀ u, Follows t u r rows rows' := by
  obtain ⟨hopen, hwf⟩ := Bool.and_eq_true_iff.1 h
  have hopen : ({ e with fault := r.fault } : Engine).isBlocked = false := by
    simpa [Engine.isBlocked] using hopen
  obtain ⟨store', rows', ⟨e', hrun, rfl⟩, hrows', hfollows⟩ :=
    Call.exists_rows (e := { e with fault := r.fault }) hrows hopen hwf
  exact ⟨e', rows', hrun, hrows', hfollows⟩

theorem Request.serve_refused (e : Engine) (h : r.isAdmitted = false) :
    ∃ error e', r.serve t e = (.error error, e') ∧ e'.store = e.store := by
  have hrefused : ({ e with fault := r.fault } : Engine).isBlocked = true ∨
      r.call.isWellFormed r.now = false := by
    rcases Bool.and_eq_false_iff.1 h with hblocked | hwf
    · left
      simpa [Engine.isBlocked] using hblocked
    · exact .inr hwf
  exact Call.refuses hrefused

def HasTable (t : TableHandle) (e : Engine) : Prop :=
  ∃ rows, e.store.messageRows t.table = .ok rows

/-- One request of a run: it is answered without an error if it is admitted, and the rows follow. -/
theorem Request.serve_spec (hrows : e.store.messageRows t.table = .ok rows) (r : Request) :
    (r.serve t e).1.isOk = r.isAdmitted ∧
      ∃ rows', (r.serve t e).2.store.messageRows t.table = .ok rows' ∧
        ∀ u, Tidy rows (t.partition u) → Tidy rows' (t.partition u) ∧
          backlog rows' (t.partition u) u =
            if r.isAdmitted then (backlog rows (t.partition u) u).step t u r
            else backlog rows (t.partition u) u := by
  cases h : r.isAdmitted with
  | true =>
    obtain ⟨e', rows', hserve, hrows', hfollows⟩ := Request.serve_admitted hrows h
    rw [hserve]
    exact ⟨rfl, rows', hrows', hfollows⟩
  | false =>
    obtain ⟨error, e', hserve, hstore⟩ := Request.serve_refused (t := t) e h
    rw [hserve]
    exact ⟨rfl, rows, hstore ▸ hrows, fun _ htidy => ⟨htidy, rfl⟩⟩

end Serving

end Mailbox

end PushQueue
