import PushQueue.Migration
import PushQueue.Proofs.Effects
import PushQueue.Proofs.Mailbox.Legible

/-!
The services of the store, each for one subscriber, and the engine calls that they are made of. A
service asks for rows of the partitions of its subscriber alone, and offers no row that could not be
read back.
-/

namespace PushQueue

inductive Service where
  | register (t : TableHandle) (now : Instant) (u : SubscriberId) (channel : ChannelId)
    (ttl : Option UInt64)
  | unregister (t : TableHandle) (now : Instant) (u : SubscriberId) (channel : ChannelId)
  | allChannels (t : TableHandle) (u : SubscriberId)
  | save (t : TableHandle) (now : Instant) (u : SubscriberId) (channels : SortedSet ChannelId)
  | store (t : TableHandle) (now : Instant) (n : Notification)
  | storeAll (t : TableHandle) (now : Instant) (u : SubscriberId) (ns : List Notification)
  | delete (t : TableHandle) (n : Notification)
  | fetch (t : TableHandle) (u : SubscriberId) (limit : Nat)
  | fetchAfter (t : TableHandle) (u : SubscriberId) (watermark : Option UInt64) (limit : Nat)
  | markRead (t : TableHandle) (now : Instant) (u : SubscriberId) (position : UInt64)
  | check (t : TableHandle) (u : SubscriberId) (includeTopics : Bool) (watermark : Option UInt64)
    (limit : Nat)
  | getRecord (r : Router) (u : SubscriberId)
  | registerRecord (r : Router) (record : RouterRecord)
  | setMonth (r : Router) (m : Moment) (u : SubscriberId) (month : String)
  | detachNode (r : Router) (u : SubscriberId) (node : String) (connectedAt : UInt64)
  | drop (r : Router) (u : SubscriberId)
  | lookup (r : Router) (m : Moment) (u : SubscriberId) (connectedAt : UInt64)
    (rotation : Rotation) (today : Date)
  | move (source target : TableHandle) (r : Router) (m : Moment) (u : SubscriberId)

namespace Service

def Reply : Service → Type
  | .register .. | .unregister .. | .delete .. | .registerRecord .. | .setMonth ..
  | .detachNode .. | .drop .. => Bool
  | .save .. | .storeAll .. | .markRead .. | .move .. => Unit
  | .allChannels .. => Bool × SortedSet ChannelId
  | .store .. => SortKey
  | .fetch .. | .fetchAfter .. => Mailbox.Page
  | .check .. => Mailbox.Delivery
  | .getRecord .. => Option RouterRecord
  | .lookup .. => Router.Outcome

def action : (s : Service) → Action s.Reply
  | .register t now u channel ttl => Channels.register t now u channel ttl
  | .unregister t now u channel => Channels.unregister t now u channel
  | .allChannels t u => Channels.all t u
  | .save t now u channels => Channels.save t now u channels
  | .store t now n => Mailbox.store t now n
  | .storeAll t now u ns => Mailbox.storeAll t now u ns
  | .delete t n => Mailbox.delete t n
  | .fetch t u limit => Mailbox.fetch t u limit
  | .fetchAfter t u watermark limit => Mailbox.fetchAfter t u watermark limit
  | .markRead t now u position => Mailbox.markRead t now u position
  | .check t u includeTopics watermark limit => Mailbox.check t u includeTopics watermark limit
  | .getRecord r u => r.get u
  | .registerRecord r record => r.register record
  | .setMonth r m u month => r.setMonth m u month
  | .detachNode r u node connectedAt => r.detachNode u node connectedAt
  | .drop r u => r.drop u
  | .lookup r m u connectedAt rotation today => r.lookup m u connectedAt rotation today
  | .move source target r m u => Migration.moveSubscriber source target r m u

/-- Whom the service is for; a batch is for its own subscriber, whatever its notifications say. -/
def subscriber : Service → SubscriberId
  | .register _ _ u _ _ | .unregister _ _ u _ | .allChannels _ u | .save _ _ u _
  | .storeAll _ _ u _ | .fetch _ u _ | .fetchAfter _ u _ _ | .markRead _ _ u _
  | .check _ u _ _ _ | .getRecord _ u | .setMonth _ _ u _ | .detachNode _ u _ _ | .drop _ u
  | .lookup _ _ u _ _ _ | .move _ _ _ _ u => u
  | .store _ _ n | .delete _ n => n.subscriber
  | .registerRecord _ record => record.subscriber

/-- The tables that the service looks at, with the key material it uses there. -/
def handles : Service → List TableHandle
  | .register t .. | .unregister t .. | .allChannels t _ | .save t .. | .store t ..
  | .storeAll t .. | .delete t _ | .fetch t .. | .fetchAfter t .. | .markRead t ..
  | .check t .. => [t]
  | .getRecord r _ | .registerRecord r _ | .setMonth r .. | .detachNode r .. | .drop r _
  | .lookup r .. => [r.handle]
  | .move source target r _ _ => [source, target, r.handle]

/-- The partitions of the subscriber. -/
def Owns (s : Service) (p : String) : Prop := ∃ t ∈ s.handles, t.partition s.subscriber = p

end Service

/-- The engine calls about some partitions that offer no row but such as can be read back. -/
inductive EngineCall (owns : String → Prop) :
    ∀ {α : Type}, (Store → Except StoreError (α × Store)) → Prop
  | getRow (name : String) {key : RowKey} : owns key.partition →
    EngineCall owns fun s => (s.getRow name key).map fun row => (row, s)
  | query (name : String) {p : String} (range : KeyRange) (limit : Nat) : owns p →
    EngineCall owns fun s => (s.query name p range limit).map fun rows => (rows, s)
  | putRow (name : String) {row : MessageRow} : owns row.key.partition →
    Mailbox.Legible row.key row.content → EngineCall owns (Store.putRow name row)
  | putRows (name : String) {rows : List MessageRow} : (∀ row ∈ rows, owns row.key.partition) →
    (∀ row ∈ rows, Mailbox.Legible row.key row.content) →
    EngineCall owns (Store.putRows name rows)
  | deleteRow (name : String) {key : RowKey} (updateId : Option String) : owns key.partition →
    EngineCall owns (Store.deleteRow name key updateId)
  | updateChannels (name : String) {p : String} {update : ChannelUpdate} (expiry : UInt64) :
    owns p → update.AreIds → EngineCall owns (Store.updateChannels name p update expiry)
  | setReadPosition (name : String) {p : String} {position : UInt64} (expiry : UInt64) :
    owns p → position ≤ SortKey.maxPosition →
    EngineCall owns (Store.setReadPosition name p position expiry)
  | getRouter (name : String) {p : String} : owns p →
    EngineCall owns fun s => (s.getRouter name p).map fun row => (row, s)
  | putRouter (name : String) {p : String} (new : RouterContent) : owns p →
    EngineCall owns (Store.putRouter name p new)
  | changeRouter (name : String) {p : String} (holds : RouterContent → Bool)
    (change : RouterContent → RouterContent) : owns p →
    EngineCall owns (Store.changeRouter name p holds change)
  | deletePartition (name : String) {p : String} : owns p →
    EngineCall owns (Store.deletePartition name p)

namespace Service

open PushQueue.Action

variable {owns : String → Prop} {t : TableHandle} {r : Router} {u : SubscriberId} {now : Instant}

section Parts

variable {P : ∀ {α : Type}, (Store → Except StoreError (α × Store)) → Prop}

def Queries (P : ∀ {α : Type}, (Store → Except StoreError (α × Store)) → Prop) (t : TableHandle)
    (u : SubscriberId) : Prop :=
  ∀ range limit, P fun s => (s.query t.table (t.partition u) range limit).map fun rows => (rows, s)

theorem built_all
    (h : P fun s => (s.getRow t.table (RowKey.metadata (t.partition u))).map fun row => (row, s)) :
    Built P (Channels.all t u) := by
  refine .tracked _ (.bind (.call h) fun row => ?_)
  cases row with
  | none => exact .pure _
  | some content => exact .ofExcept fun channels _ => .pure _

theorem built_fetch (h : Queries P t u) (limit : Nat) : Built P (Mailbox.fetch t u limit) :=
  .tracked _ (.bind (.call (h _ _)) fun _ => .ofExcept fun _ _ => .pure _)

theorem built_fetchAfter (h : Queries P t u) (watermark : Option UInt64) (limit : Nat) :
    Built P (Mailbox.fetchAfter t u watermark limit) :=
  .tracked _ (.ofExcept fun _ _ => .bind (.call (h _ _)) fun _ => .ofExcept fun _ _ => .pure _)

theorem built_queue (h : Queries P t u) (watermark : Option UInt64) (limit : Nat) :
    Built P (Mailbox.check.queue t u limit watermark) :=
  .bind (built_fetchAfter h watermark limit) fun _ => .pure _

theorem built_check (h : Queries P t u) (includeTopics : Bool) (watermark : Option UInt64)
    (limit : Nat) : Built P (Mailbox.check t u includeTopics watermark limit) := by
  unfold Mailbox.check
  cases includeTopics with
  | false => exact built_queue h watermark limit
  | true =>
    refine .bind (built_fetch h limit) fun topics => ?_
    cases topics.messages.isEmpty with
    | true => exact built_queue h (topics.timestamp <|> watermark) limit
    | false => exact .pure _

theorem built_get
    (h : P fun s => (s.getRouter r.handle.table (r.handle.partition u)).map fun row => (row, s)) :
    Built P (r.get u) := by
  refine .tracked _ (.bind (.call h) fun row => ?_)
  cases row with
  | none => exact .pure _
  | some content => exact .ofExcept fun record _ => .pure _

theorem built_lookup (hget : Built P (r.get u)) (hdrop : Built P (r.drop u)) {m : Moment}
    (hlast : P (Store.setLastConnect r.handle.table (r.handle.partition u) (r.stamp m)))
    (connectedAt : UInt64) (rotation : Rotation) (today : Date) :
    Built P (r.lookup m u connectedAt rotation today) := by
  refine .bind hget fun user => ?_
  cases user with
  | none => exact .pure _
  | some user =>
    simp only
    split
    next => exact .bind hdrop fun _ => .pure _
    next month hmonth =>
      split
      · exact .bind (.pure _) fun _ => .pure _
      · exact .bind (.call hlast) fun _ => .bind (.pure _) fun _ => .pure _

theorem built_move {source target : TableHandle} {m : Moment}
    (hall : Built P (Channels.all source u))
    (hsave : ∀ channels, Built P (Channels.save target m.now u channels))
    (hmonth : Built P (r.setMonth m u target.table)) :
    Built P (Migration.moveSubscriber source target r m u) := by
  have hrest : Built P (r.setMonth m u target.table >>= fun _ => pure ()) :=
    .bind hmonth fun _ => .pure _
  refine .bind hall fun answer => ?_
  obtain ⟨found, channels⟩ := answer
  simp only
  split
  · exact .bind (hsave channels) fun _ => hrest
  · exact hrest

theorem queries_of_owns (h : owns (t.partition u)) : Queries (EngineCall owns) t u :=
  fun range limit => .query _ range limit h

end Parts

theorem built_save (h : owns (t.partition u)) (channels : SortedSet ChannelId) :
    Built (EngineCall owns) (Channels.save t now u channels) := by
  refine .tracked _ (.call (.putRow _ h (Mailbox.legible_metadata_iff.2 ⟨?_, nofun⟩)))
  exact Mailbox.areIds_texts channels

theorem built_storeAll (h : owns (t.partition u)) (ns : List Notification) :
    Built (EngineCall owns) (Mailbox.storeAll t now u ns) := by
  refine .tracked _ (.ofExcept fun written hwritten => .call ?_)
  have hrow : ∀ row ∈ written,
      row.key.partition = t.partition u ∧ Mailbox.Legible row.key row.content := by
    intro row hmem
    obtain ⟨n, -, hn⟩ := (mem_of_mapM_eq_ok hwritten).1 hmem
    obtain ⟨⟨key, row'⟩, hrowFor, rfl⟩ := map_eq_ok_iff.1 hn
    exact Mailbox.legible_rowFor hrowFor
  exact .putRows _ (fun row hmem => (hrow row hmem).1 ▸ h) fun row hmem => (hrow row hmem).2

theorem built (s : Service) : Built (EngineCall s.Owns) s.action := by
  have hsole {t : TableHandle} (hhandles : s.handles = [t]) : s.Owns (t.partition s.subscriber) :=
    ⟨t, hhandles ▸ List.mem_cons_self, rfl⟩
  cases s with
  | register t now u channel ttl =>
    exact .tracked _ (.bind (.call (.updateChannels _ _ (hsole rfl)
      (Mailbox.areIds_singleton channel))) fun _ => .pure _)
  | unregister t now u channel =>
    exact .tracked _ (.bind (.call (.updateChannels _ _ (hsole rfl) trivial)) fun _ => .pure _)
  | allChannels t u => exact built_all (.getRow _ (hsole rfl))
  | save t now u channels => exact built_save (hsole rfl) channels
  | store t now n =>
    refine .tracked _ (.ofExcept fun (key, row) hrow => ?_)
    obtain ⟨hp, hlegible⟩ := Mailbox.legible_rowFor hrow
    exact .bind (.call (.putRow _ (hp ▸ hsole rfl) hlegible)) fun _ => .pure _
  | storeAll t now u ns => exact built_storeAll (hsole rfl) ns
  | delete t n => exact .tracked _ (.ofExcept fun _ _ => .call (.deleteRow _ _ (hsole rfl)))
  | fetch t u limit => exact built_fetch (queries_of_owns (hsole rfl)) limit
  | fetchAfter t u watermark limit =>
    exact built_fetchAfter (queries_of_owns (hsole rfl)) watermark limit
  | markRead t now u position =>
    refine .tracked _ (.ofExcept fun checked hchecked => ?_)
    obtain ⟨hle, rfl⟩ := SortKey.checkPosition_eq_ok_iff.1 (orStore_eq_ok_iff.1 hchecked)
    exact .call (.setReadPosition _ _ (hsole rfl) hle)
  | check t u includeTopics watermark limit =>
    exact built_check (queries_of_owns (hsole rfl)) includeTopics watermark limit
  | getRecord r u => exact built_get (.getRouter _ (hsole rfl))
  | registerRecord r record => exact .tracked _ (.call (.putRouter _ _ (hsole rfl)))
  | setMonth r m u month => exact .tracked _ (.call (.changeRouter _ _ _ (hsole rfl)))
  | detachNode r u node connectedAt =>
    exact .tracked _ (.call (.changeRouter _ _ _ (hsole rfl)))
  | drop r u => exact .tracked _ (.call (.deletePartition _ (hsole rfl)))
  | lookup r m u connectedAt rotation today =>
    exact built_lookup (built_get (.getRouter _ (hsole rfl)))
      (.tracked _ (.call (.deletePartition _ (hsole rfl)))) (.changeRouter _ _ _ (hsole rfl))
      connectedAt rotation today
  | move source target r m u =>
    exact built_move (built_all (.getRow _ ⟨source, by simp [handles], rfl⟩))
      (built_save ⟨target, by simp [handles], rfl⟩)
      (.tracked _ (.call (.changeRouter _ _ _ ⟨r.handle, by simp [handles], rfl⟩)))

end Service

end PushQueue
