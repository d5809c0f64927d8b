import PushQueue.Proofs.Failures
import PushQueue.Proofs.Isolation
import PushQueue.Proofs.Sweep

/-!
What takes rows away. A service does so only if it is to delete the very row or to drop the
subscriber, and a sweep only takes rows that have expired; no service makes a table or drops one.
-/

namespace PushQueue

namespace Store

variable {α : Type} {a : α} {s s' : Store} {name other p : String} {k : RowKey}

def rowAt (name : String) (k : RowKey) (s : Store) : Option RowContent :=
  match s.tables.get? name with
  | some (.messages rows) => rows.get? k
  | some (.routers _) | none => none

/-- If the row was there, it still is, though it may have been written anew. -/
def Spares (name : String) (k : RowKey) (s s' : Store) : Prop :=
  (s.rowAt name k).isSome = true → (s'.rowAt name k).isSome = true

theorem rowAt_of_messageRows {rows : MessageRows} (h : s.messageRows name = .ok rows)
    (k : RowKey) : s.rowAt name k = rows.get? k := by
  rw [rowAt, get?_of_table (messageRows_eq_ok_iff.1 h)]

theorem rowAt_congr (h : s'.tables.get? name = s.tables.get? name) (k : RowKey) :
    s'.rowAt name k = s.rowAt name k := by
  rw [rowAt, rowAt, h]

theorem rowAt_setTable (s : Store) (name : String) (rows : MessageRows) (k : RowKey) :
    (s.setTable name (.messages rows)).rowAt name k = rows.get? k := by
  rw [rowAt, get?_setTable, if_pos rfl]

theorem rowAt_setTable_of_ne (h : other ≠ name) (s : Store) (table : Table) (k : RowKey) :
    (s.setTable other table).rowAt name k = s.rowAt name k := by
  rw [rowAt, rowAt, get?_setTable, if_neg h]

theorem Spares.of_updateMessages {f : MessageRows → α × MessageRows}
    (h : updateMessages other f s = .ok (a, s'))
    (hf : other = name → ∀ rows, (rows.get? k).isSome = true → ((f rows).2.get? k).isSome = true) :
    Spares name k s s' := by
  obtain ⟨rows, hrows, -, rfl⟩ := exists_rows_of_updateMessages h
  intro hrow
  by_cases hname : other = name
  · subst hname
    rw [rowAt_of_messageRows hrows] at hrow
    rw [rowAt_setTable]
    exact hf rfl rows hrow
  · rwa [rowAt_setTable_of_ne hname]

theorem Spares.of_deletePartition {found : Bool} (h : deletePartition other p s = .ok (found, s'))
    (hp : other = name → k.partition ≠ p) : Spares name k s s' := by
  obtain ⟨table, htable, heq⟩ := map_eq_ok_iff.1 h
  intro hrow
  by_cases hname : other = name
  · subst hname
    rw [rowAt, get?_of_table htable] at hrow
    cases table with
    | messages rows =>
      obtain ⟨-, rfl⟩ := Prod.mk.inj heq
      rw [rowAt_setTable, SortedMap.get?_filter]
      obtain ⟨content, hget⟩ := Option.isSome_iff_exists.1 hrow
      simp [hget, hp rfl]
    | routers => cases hrow
  · cases table <;> obtain ⟨-, rfl⟩ := Prod.mk.inj heq <;> rwa [rowAt_setTable_of_ne hname]

theorem isSome_get?_upsert {rows : MessageRows} {key : RowKey} (fresh : RowContent)
    (merge : RowContent → RowContent) (h : (rows.get? k).isSome = true) :
    ((upsert name key fresh merge rows).get? k).isSome = true := by
  rw [get?_upsert]
  split
  · cases rows.get? key <;> rfl
  · exact h

def Sparing (name : String) (k : RowKey) {α : Type} (f : Store → Except StoreError (α × Store)) :
    Prop :=
  ∀ s a s', f s = .ok (a, s') → s.Spares name k s'

theorem sparing_map (f : Store → Except StoreError α) :
    Sparing name k fun s => (f s).map fun a => (a, s) := by
  intro s a s' h
  rw [Mailbox.reading_map f s a s' h]
  exact id

theorem sparing_updateRouters (f : RouterRows → α × RouterRows) :
    Sparing name k (updateRouters other f) := by
  intro s a s' h hrow
  obtain ⟨rows, hrows, -, rfl⟩ := exists_rows_of_updateRouters h
  by_cases hname : other = name
  · rw [← hname, rowAt, get?_of_table (routerRows_eq_ok_iff.1 hrows)] at hrow
    cases hrow
  · rwa [rowAt_setTable_of_ne hname]

theorem sparing_putRow (row : MessageRow) : Sparing name k (putRow other row) := by
  refine fun _ _ _ h => .of_updateMessages h fun _ rows hrow => ?_
  rw [SortedMap.get?_insert]
  split
  · rfl
  · exact hrow

theorem sparing_putRows (written : List MessageRow) : Sparing name k (putRows other written) := by
  intro s a s' h
  unfold putRows at h
  split at h
  · obtain ⟨_, -, heq⟩ := map_eq_ok_iff.1 h
    obtain ⟨-, rfl⟩ := Prod.mk.inj heq
    exact id
  · refine .of_updateMessages h fun _ rows hrow => ?_
    refine (congrArg Option.isSome (Mailbox.get?_insertAll rows written k)).trans ?_
    rw [Option.isSome_or, hrow, Bool.or_true]

theorem sparing_updateChannels (update : ChannelUpdate) (expiry : UInt64) :
    Sparing name k (updateChannels other p update expiry) :=
  fun _ _ _ h => .of_updateMessages h fun _ _ => isSome_get?_upsert _ _

theorem sparing_setReadPosition (position expiry : UInt64) :
    Sparing name k (setReadPosition other p position expiry) :=
  fun _ _ _ h => .of_updateMessages h fun _ _ => isSome_get?_upsert _ _

theorem sparing_deleteRow {key : RowKey} (hkey : other = name → key ≠ k)
    (updateId : Option String) : Sparing name k (deleteRow other key updateId) := by
  refine fun _ _ _ h => .of_updateMessages h fun hname rows hrow => ?_
  exact (congrArg Option.isSome (Mailbox.get?_deleted_of_ne (hkey hname) updateId)).trans hrow

end Store

section Services

open PushQueue.Action (Built)
open Store (Sparing)

variable {name : String} {k : RowKey}

namespace Service

/-- What the service is to take away: the row of a notification, or all rows of a subscriber. -/
def Deletes (name : String) (k : RowKey) : Service → Prop
  | .delete t n => t.table = name ∧
    ∃ key, n.sortKey = .ok key ∧ k = ⟨t.partition n.subscriber, key.encode⟩
  | .drop r u => r.handle.table = name ∧ k.partition = r.handle.partition u
  | .register .. | .unregister .. | .allChannels .. | .save .. | .store .. | .storeAll ..
  | .fetch .. | .fetchAfter .. | .markRead .. | .check .. | .getRecord .. | .registerRecord ..
  | .setMonth .. | .detachNode .. | .lookup .. | .move .. => False

theorem queries_sparing (t : TableHandle) (u : SubscriberId) :
    Queries (Sparing name k) t u := fun _ _ => Store.sparing_map _

theorem built_save_sparing (t : TableHandle) (now : Instant) (u : SubscriberId)
    (channels : SortedSet ChannelId) : Built (Sparing name k) (Channels.save t now u channels) :=
  .tracked _ (.call (Store.sparing_putRow _))

theorem built_drop_sparing {r : Router} {u : SubscriberId}
    (h : r.handle.table = name → k.partition ≠ r.handle.partition u) :
    Built (Sparing name k) (r.drop u) :=
  .tracked _ (.call fun _ _ _ hdelete => .of_deletePartition hdelete h)

theorem built_sparing (s : Service) (h : ¬ s.Deletes name k)
    (hlookup : ∀ r m u connectedAt rotation today, s = .lookup r m u connectedAt rotation today →
      r.handle.table ≠ name) : Built (Sparing name k) s.action := by
  cases s with
  | register | unregister =>
    exact .tracked _ (.bind (.call (Store.sparing_updateChannels _ _)) fun _ => .pure _)
  | allChannels => exact built_all (Store.sparing_map _)
  | save t now u channels => exact built_save_sparing t now u channels
  | store =>
    exact .tracked _ (.ofExcept fun _ _ =>
      .bind (.call (Store.sparing_putRow _)) fun _ => .pure _)
  | storeAll => exact .tracked _ (.ofExcept fun _ _ => .call (Store.sparing_putRows _))
  | delete t n =>
    refine .tracked _ (.ofExcept fun key hkey => .call (Store.sparing_deleteRow ?_ _))
    rintro hname rfl
    exact h ⟨hname, key, orStore_eq_ok_iff.1 hkey, rfl⟩
  | fetch t u limit => exact built_fetch (queries_sparing t u) limit
  | fetchAfter t u watermark limit => exact built_fetchAfter (queries_sparing t u) watermark limit
  | markRead => exact .tracked _ (.ofExcept fun _ _ => .call (Store.sparing_setReadPosition _ _))
  | check t u includeTopics watermark limit =>
    exact built_check (queries_sparing t u) includeTopics watermark limit
  | getRecord => exact built_get (Store.sparing_map _)
  | registerRecord | setMonth | detachNode =>
    exact .tracked _ (.call (Store.sparing_updateRouters _))
  | drop => exact built_drop_sparing fun hname hp => h ⟨hname, hp⟩
  | lookup r m u connectedAt rotation today =>
    exact built_lookup (built_get (Store.sparing_map _))
      (built_drop_sparing fun hname => absurd hname (hlookup r m u connectedAt rotation today rfl))
      (Store.sparing_updateRouters _) connectedAt rotation today
  | move source target =>
    exact built_move (built_all (Store.sparing_map _)) (built_save_sparing target _ _)
      (.tracked _ (.call (Store.sparing_updateRouters _)))

theorem refuses_lookup {r : Router} {e : Engine}
    (hrow : (e.store.rowAt r.handle.table k).isSome = true) (m : Moment) (u : SubscriberId)
    (connectedAt : UInt64) (rotation : Rotation) (today : Date) :
    (r.lookup m u connectedAt rotation today).Refuses e := by
  have hget : (Action.read fun s =>
      s.getRouter r.handle.table (r.handle.partition u)).Refuses e := by
    rcases Action.call_cases _ e with hrefuses | ⟨found, store, hread, -⟩
    · exact hrefuses
    · obtain ⟨_, hfound, -⟩ := map_eq_ok_iff.1 hread
      obtain ⟨rows, hrows, -⟩ := Store.getRouter_eq_ok_iff.1 hfound
      rw [Store.rowAt, Store.get?_of_table (Store.routerRows_eq_ok_iff.1 hrows)] at hrow
      cases hrow
  exact ((hget.bind _).tracked _).bind _

theorem spares (s : Service) (h : ¬ s.Deletes name k) (e : Engine) :
    e.store.Spares name k (Action.run s.action e).2.store := by
  -- A lookup drops a whole partition, which may be that of the row if the lookup is in this very
  -- table; but then it is refused before.
  by_cases hlookup : ∃ r m u connectedAt rotation today,
      s = .lookup r m u connectedAt rotation today ∧ r.handle.table = name
  · obtain ⟨r, m, u, connectedAt, rotation, today, rfl, rfl⟩ := hlookup
    intro hrow
    obtain ⟨error, e', hrun, hstore⟩ := refuses_lookup hrow m u connectedAt rotation today
    change ((Action.run (r.lookup m u connectedAt rotation today) e).2.store.rowAt _ k).isSome = _
    rwa [hrun, hstore]
  · have hbuilt := s.built_sparing h fun r m u connectedAt rotation today hs hname =>
      hlookup ⟨r, m, u, connectedAt, rotation, today, hs, hname⟩
    exact hbuilt.steps (R := Store.Spares name k) (fun _ => id)
      (fun hfirst hsecond => hsecond ∘ hfirst) (fun hf _ _ _ => hf _ _ _) e

theorem mem_messageTables_run (s : Service) (e : Engine) :
    name ∈ (Action.run s.action e).2.store.messageTables ↔ name ∈ e.store.messageTables := by
  have htable := s.agreesOn_run e name
  rw [Admin.mem_messageTables, Admin.mem_messageTables]
  revert htable
  generalize e.store.tables.get? name = found,
    (Action.run s.action e).2.store.tables.get? name = found'
  rintro ((hrows | hrows) | _) <;> simp

end Service

namespace Admin

variable {cutoff : UInt64} {s s' : Store} {content : RowContent}

theorem Swept.mem_messageTables (h : Swept cutoff s s') :
    name ∈ s'.messageTables ↔ name ∈ s.messageTables := by
  rcases h name with hsame | ⟨rows, hrows, hkept⟩
  · rw [Admin.mem_messageTables, Admin.mem_messageTables, hsame]
  · simp [Admin.mem_messageTables, hrows, hkept]

theorem Swept.rowAt_eq (h : Swept cutoff s s') (hrow : s.rowAt name k = some content)
    (hfresh : expiredBefore cutoff content = false) : s'.rowAt name k = some content := by
  unfold Store.rowAt at hrow ⊢
  rcases h name with hsame | ⟨rows, hrows, hkept⟩
  · rwa [hsame]
  · rw [hrows] at hrow
    rw [hkept]
    simp only at hrow ⊢
    rw [get?_kept, hrow, Option.filter_some, hfresh]
    rfl

end Admin

end Services

end PushQueue
