import PushQueue.Proofs.Mailbox.Ages
import PushQueue.Proofs.Mailbox.Refinement
import PushQueue.Proofs.Migration

/-!
Failures. A service makes its reads and its checks before its one write, so that one that fails has
written nothing. Only a move writes twice: when it fails between its writes, the channels are in the
metadata row of the target and the rest of the store is as it was.
-/

namespace PushQueue

namespace Action

variable {α β : Type} {act : Action α} {next : α → Action β}

/-- An action that leaves the store as it was if it fails. -/
structure Atomic (act : Action α) : Prop where
  store_eq : ∀ {e e' error}, Action.run act e = (.error error, e') → e'.store = e.store

theorem Atomic.pure (a : α) : Atomic (pure a : Action α) := ⟨nofun⟩

theorem Atomic.call (f : Store → Except StoreError (α × Store)) : Atomic (call f) := by
  refine ⟨fun {e e' error} hrun => ?_⟩
  rcases call_cases f e with ⟨error', e₁, hrun', hstore⟩ | ⟨a, store, -, e₁, hrun', -⟩
  · obtain ⟨-, rfl⟩ := Prod.mk.inj (hrun'.symm.trans hrun)
    exact hstore
  · cases hrun'.symm.trans hrun

theorem Atomic.tracked (h : Atomic act) (op : Operation) : Atomic (tracked op act) := by
  refine ⟨fun {e e' error} hrun => ?_⟩
  cases hact : Action.run act e with
  | mk result e₁ =>
    obtain ⟨stats, htracked⟩ := run_tracked hact op
    obtain ⟨rfl, rfl⟩ := Prod.mk.inj (htracked.symm.trans hrun)
    change e₁.store = e.store
    exact h.store_eq hact

theorem Atomic.ofExcept_bind {x : Except StoreError α} (h : ∀ a, x = .ok a → Atomic (next a)) :
    Atomic (ofExcept x >>= next) := by
  refine ⟨fun {e e' error} hrun => ?_⟩
  rw [run_ofExcept_bind] at hrun
  cases x with
  | error => exact congrArg Engine.store (Prod.mk.inj hrun).2.symm
  | ok a => exact (h a rfl).store_eq hrun

theorem Atomic.bind_pure (h : Atomic act) (f : α → β) :
    Atomic (act >>= fun a => Pure.pure (f a)) := by
  refine ⟨fun {e e' error} hrun => ?_⟩
  rw [run_bind] at hrun
  split at hrun
  next => cases hrun
  next error' e₁ hact =>
    obtain ⟨-, rfl⟩ := Prod.mk.inj hrun
    exact h.store_eq hact

theorem Built.store_of_reading (h : Built Mailbox.Reading act) (e : Engine) :
    (Action.run act e).2.store = e.store :=
  h.steps (R := fun s s' => s' = s) (fun _ => rfl) (fun h h' => h'.trans h)
    (fun hf _ _ _ => hf _ _ _) e

theorem Atomic.of_reading (h : Built Mailbox.Reading act) : Atomic act := by
  refine ⟨fun {e e' error} hrun => ?_⟩
  have hstore := h.store_of_reading e
  rwa [hrun] at hstore

theorem Atomic.after_reading (h : Built Mailbox.Reading act) (hnext : ∀ a, Atomic (next a)) :
    Atomic (act >>= next) := by
  refine ⟨fun {e e' error} hrun => ?_⟩
  have hstore := h.store_of_reading e
  rw [run_bind] at hrun
  split at hrun
  next a e₁ hact =>
    rw [hact] at hstore
    exact ((hnext a).store_eq hrun).trans hstore
  next error' e₁ hact =>
    rw [hact] at hstore
    obtain ⟨-, rfl⟩ := Prod.mk.inj hrun
    exact hstore

end Action

section Services

open PushQueue.Action Mailbox

theorem Channels.atomic_save (t : TableHandle) (now : Instant) (u : SubscriberId)
    (channels : SortedSet ChannelId) : Atomic (save t now u channels) :=
  .tracked (.call _) _

theorem Router.reading_get (r : Router) (u : SubscriberId) : Built Reading (r.get u) :=
  Service.built_get (reading_map _)

theorem Router.atomic_setMonth (r : Router) (m : Moment) (u : SubscriberId) (month : String) :
    Atomic (r.setMonth m u month) :=
  .tracked (.call _) _

theorem Router.atomic_lookup (r : Router) (m : Moment) (u : SubscriberId) (connectedAt : UInt64)
    (rotation : Rotation) (today : Date) : Atomic (r.lookup m u connectedAt rotation today) := by
  refine .after_reading (r.reading_get u) fun user => ?_
  cases user with
  | none => exact .pure _
  | some user =>
    simp only
    split
    next => exact .bind_pure (.tracked (.call _) _) _
    next month hmonth =>
      split
      · exact .bind_pure (.pure _) _
      · exact .bind_pure (.call _) fun _ =>
          known rotation today user month (some (r.stamp m)) connectedAt

namespace Service

def isMove : Service → Bool
  | .move .. => true
  | .register .. | .unregister .. | .allChannels .. | .save .. | .store .. | .storeAll ..
  | .delete .. | .fetch .. | .fetchAfter .. | .markRead .. | .check .. | .getRecord ..
  | .registerRecord .. | .setMonth .. | .detachNode .. | .drop .. | .lookup .. => false

theorem atomic (s : Service) (h : s.isMove = false) : Atomic s.action := by
  cases s with
  | register | unregister => exact .tracked (.bind_pure (.call _) _) _
  | allChannels => exact .of_reading (built_all (reading_map _))
  | save => exact Channels.atomic_save _ _ _ _
  | store => exact .tracked (.ofExcept_bind fun written _ => .bind_pure (.call _) _) _
  | storeAll | delete | markRead => exact .tracked (.ofExcept_bind fun _ _ => .call _) _
  | fetch t u limit => exact .of_reading (built_fetch (queries_reading t u) limit)
  | fetchAfter t u watermark limit =>
    exact .of_reading (built_fetchAfter (queries_reading t u) watermark limit)
  | check t u includeTopics watermark limit =>
    exact .of_reading (built_check (queries_reading t u) includeTopics watermark limit)
  | getRecord r u => exact .of_reading (r.reading_get u)
  | registerRecord | detachNode | drop => exact .tracked (.call _) _
  | setMonth r m u month => exact r.atomic_setMonth m u month
  | lookup r m u connectedAt rotation today => exact r.atomic_lookup m u connectedAt rotation today
  | move => cases h

end Service

end Services

namespace Store

structure SameBut (name : String) (key : RowKey) (s s' : Store) : Prop where
  others : ∀ other, other ≠ name → s'.tables.get? other = s.tables.get? other
  rows : s'.tables.get? name = s.tables.get? name ∨
    ∃ rows rows', s.tables.get? name = some (.messages rows) ∧
      s'.tables.get? name = some (.messages rows') ∧ ∀ k, k ≠ key → rows'.get? k = rows.get? k

theorem SameBut.refl (name : String) (key : RowKey) (s : Store) : SameBut name key s s :=
  ⟨fun _ _ => rfl, .inl rfl⟩

theorem sameBut_of_putRow {name : String} {row : MessageRow} {s s' : Store}
    (h : putRow name row s = .ok ((), s')) : SameBut name row.key s s' := by
  obtain ⟨rows, hrows, -, rfl⟩ := exists_rows_of_updateMessages h
  refine ⟨fun other hne => ?_, .inr ⟨rows, rows.insert row.key row.content,
    get?_of_table (messageRows_eq_ok_iff.1 hrows), ?_, fun k hne => ?_⟩⟩
  · rw [get?_setTable, if_neg (Ne.symm hne)]
  · rw [get?_setTable, if_pos rfl]
  · rw [SortedMap.get?_insert, if_neg (Ne.symm hne)]

end Store

section Moves

open PushQueue.Action

variable {source target : TableHandle} {r : Router} {m : Moment} {u : SubscriberId}
  {e e' : Engine} {s s' : Store}

namespace Migration

def carriedRow (target : TableHandle) (m : Moment) (u : SubscriberId)
    (channels : SortedSet ChannelId) : MessageRow where
  key := .metadata (target.partition u)
  content :=
    { channels := some (Channels.texts channels), expiry := target.expiryAt m.now.seconds none }

def carry (target : TableHandle) (m : Moment) (u : SubscriberId) (channels : SortedSet ChannelId)
    (s : Store) : Except StoreError (Unit × Store) :=
  if channels.isEmpty then .ok ((), s)
  else Store.putRow target.table (carriedRow target m u channels) s

def point (target : TableHandle) (r : Router) (m : Moment) (u : SubscriberId) (s : Store) :
    Except StoreError (Bool × Store) :=
  Store.setMonth r.handle.table (r.handle.partition u) target.table (r.stamp m) s

def answer (source : TableHandle) (u : SubscriberId) (s : Store) :
    Except StoreError (Bool × SortedSet ChannelId) :=
  (s.messageRows source.table).bind fun rows => Channels.profile rows (source.partition u)

/-- The first write of a move is done, and not the second. -/
def Carried (source target : TableHandle) (m : Moment) (u : SubscriberId) (s s' : Store) : Prop :=
  ∃ found channels, answer source u s = .ok (found, channels) ∧
    carry target m u channels s = .ok ((), s')

theorem Carried.sameBut (h : Carried source target m u s s') :
    s.SameBut target.table (.metadata (target.partition u)) s' := by
  obtain ⟨found, channels, -, hcarry⟩ := h
  unfold carry at hcarry
  split at hcarry
  · cases hcarry
    exact .refl _ _ s
  · exact Store.sameBut_of_putRow hcarry

theorem answer_of_all {reply : Bool × SortedSet ChannelId} {e₁ : Engine}
    (h : Action.run (Channels.all source u) e = (.ok reply, e₁)) :
    e₁.store = e.store ∧ answer source u e.store = .ok reply := by
  obtain ⟨hstore, rows, hrows, hprofile⟩ := Channels.all_of_gives ⟨e₁, h, rfl⟩
  refine ⟨hstore, ?_⟩
  rw [answer, hrows]
  exact hprofile

/-- A move that fails has done its first write at most. -/
theorem move_cases {result : Except StoreError Unit}
    (h : Action.run (moveSubscriber source target r m u) e = (result, e')) :
    (∃ error, result = .error error ∧
      (e'.store = e.store ∨ Carried source target m u e.store e'.store)) ∨
    (result = .ok () ∧ ∃ s₁ known, Carried source target m u e.store s₁ ∧
      point target r m u s₁ = .ok (known, e'.store)) := by
  -- From the store with the channels on, what is left to do is the second write.
  have hpoint {e₂ : Engine} (hcarried : Carried source target m u e.store e₂.store)
      (hrun : Action.run (r.setMonth m u target.table >>= fun _ => pure ()) e₂ = (result, e')) :
      (∃ error, result = .error error ∧
        (e'.store = e.store ∨ Carried source target m u e.store e'.store)) ∨
      (result = .ok () ∧ ∃ s₁ known, Carried source target m u e.store s₁ ∧
        point target r m u s₁ = .ok (known, e'.store)) := by
    cases result with
    | error error =>
      have hstore := (Atomic.bind_pure (r.atomic_setMonth m u target.table) _).store_eq hrun
      exact .inl ⟨error, rfl, .inr (hstore ▸ hcarried)⟩
    | ok =>
      obtain ⟨known, hgives, -⟩ := Gives.of_bind_pure ⟨e', hrun, rfl⟩
      exact .inr ⟨rfl, e₂.store, known, hcarried, hgives.of_tracked.of_call⟩
  have hreading : Built Mailbox.Reading (Channels.all source u) :=
    Service.built_all (Mailbox.reading_map _)
  unfold moveSubscriber at h
  rw [run_bind] at h
  split at h
  next reply e₁ hall =>
    obtain ⟨found, channels⟩ := reply
    obtain ⟨hstore, hanswer⟩ := answer_of_all hall
    cases hempty : channels.isEmpty with
    | true =>
      simp only [hempty, Bool.not_true, Bool.false_eq_true, ↓reduceIte] at h
      refine hpoint ⟨found, channels, hanswer, ?_⟩ h
      rw [carry, if_pos hempty, hstore]
    | false =>
      simp only [hempty, Bool.not_false, ↓reduceIte] at h
      rw [run_bind] at h
      split at h
      next saved e₂ hsave =>
        refine hpoint ⟨found, channels, hanswer, ?_⟩ h
        have hgives : (Channels.save target m.now u channels).Gives e₁ () e₂.store :=
          ⟨e₂, hsave, rfl⟩
        rw [carry, if_neg (by simp [hempty]), ← hstore]
        exact hgives.of_tracked.of_call
      next error e₂ hsave =>
        obtain ⟨rfl, rfl⟩ := Prod.mk.inj h
        have hsaved := (Channels.atomic_save target m.now u channels).store_eq hsave
        exact .inl ⟨error, rfl, .inl (hsaved.trans hstore)⟩
  next error e₁ hall =>
    obtain ⟨rfl, rfl⟩ := Prod.mk.inj h
    exact .inl ⟨error, rfl, .inl ((Atomic.of_reading hreading).store_eq hall)⟩

end Migration

/-- A service that fails has changed nothing. A move that fails may have written the metadata row of
the subscriber in the target, and nothing else. -/
theorem Service.failure_changes_nothing (service : Service) {error : StoreError}
    (h : Action.run service.action e = (.error error, e')) :
    (service.isMove = false → e'.store = e.store) ∧
    ∀ source target r m u, service = .move source target r m u →
      e.store.SameBut target.table (.metadata (target.partition u)) e'.store := by
  refine ⟨fun hmove => (service.atomic hmove).store_eq h, ?_⟩
  rintro source target r m u rfl
  rcases Migration.move_cases h with ⟨_, -, hstore | hcarried⟩ | ⟨hresult, -⟩
  · rw [hstore]
    exact .refl _ _ _
  · exact hcarried.sameBut
  · cases hresult

open Mailbox Migration

def refusedBatch : Service :=
  .storeAll januaryTable ⟨5⟩ ⟨⟨1⟩⟩
    [queuedNotification, { queuedNotification with topic := some "a:b" }, queuedNotification]

def interruptedMove : Service := .move oldMonth newMonth Router.routers ⟨⟨5⟩, 0⟩ ⟨⟨1⟩⟩

/-- The move leaves the channel in the target. -/
theorem Service.failure_changes_nothing_halfway :
    ∃ batched moved,
      Action.run refusedBatch.action januaryEngine =
        (.error (.invalidKey (.invalidTopic "a:b")), batched) ∧
      batched.store = januaryEngine.store ∧
      Action.run interruptedMove.action
        { registeredEngine with fault := some ⟨2, .transient "busy"⟩ } =
          (.error (.transient "busy"), moved) ∧
      registeredEngine.store.SameBut newMonth.table (.metadata (newMonth.partition ⟨⟨1⟩⟩))
        moved.store ∧
      moved.store ≠ registeredEngine.store := by
  have hbatch : (Action.run refusedBatch.action januaryEngine).1 =
      .error (.invalidKey (.invalidTopic "a:b")) := by
    unfold refusedBatch Service.action Service.Reply
    decide +kernel
  have hmove : (Action.run interruptedMove.action
      { registeredEngine with fault := some ⟨2, .transient "busy"⟩ }).1 =
        .error (.transient "busy") := by
    unfold interruptedMove Service.action Service.Reply
    decide +kernel
  have hbatched := refusedBatch.failure_changes_nothing (Prod.ext hbatch rfl)
  have hmoved := interruptedMove.failure_changes_nothing (Prod.ext hmove rfl)
  refine ⟨_, _, Prod.ext hbatch rfl, hbatched.1 rfl, Prod.ext hmove rfl,
    hmoved.2 oldMonth newMonth Router.routers ⟨⟨5⟩, 0⟩ ⟨⟨1⟩⟩ rfl, ?_⟩
  decide +kernel

end Moves

end PushQueue
