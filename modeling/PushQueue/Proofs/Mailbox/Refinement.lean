import PushQueue.Proofs.Mailbox.Reads
import PushQueue.Proofs.Mailbox.Requests
import PushQueue.Proofs.Runs

/-!
Runs of requests on one message table. What a subscriber reads after a run from the empty table is
its backlog after the accepted requests: the topics by channel and topic, and the queue by position
and channel, each cut at the limit.
-/

namespace PushQueue.Mailbox

variable {t : TableHandle} {u : SubscriberId} {e : Engine} {rows : MessageRows}

def serveAll (t : TableHandle) (e : Engine) (requests : List Request) : Engine :=
  e.after (fun e r => (r.serve t e).2) requests

def accepted (t : TableHandle) (e : Engine) (requests : List Request) : List Request :=
  e.accepted (Request.serve t) requests

/-- The backlog of a subscriber after a run from the empty table. -/
def backlogAfter (t : TableHandle) (u : SubscriberId) (e : Engine) (requests : List Request) :
    Backlog :=
  (accepted t e requests).foldl (Backlog.step t u) {}

theorem accepted_eq_filter (htable : HasTable t e) (requests : List Request) :
    accepted t e requests = requests.filter Request.isAdmitted := by
  refine Engine.accepted_eq_filter htable (fun r e htable => ?_) requests
  obtain ⟨rows, hrows⟩ := htable
  obtain ⟨hanswer, rows', hrows', -⟩ := r.serve_spec hrows
  exact ⟨hanswer, rows', hrows'⟩

/-- The rows after a run stand for the backlog after its admitted requests. -/
theorem exists_rows_serveAll (hrows : e.store.messageRows t.table = .ok rows)
    (htidy : Tidy rows (t.partition u)) (requests : List Request) :
    ∃ rows', (serveAll t e requests).store.messageRows t.table = .ok rows' ∧
      Tidy rows' (t.partition u) ∧
      backlog rows' (t.partition u) u =
        (requests.filter Request.isAdmitted).foldl (Backlog.step t u)
          (backlog rows (t.partition u) u) := by
  rw [List.foldl_filter]
  let Stands (e : Engine) (b : Backlog) : Prop :=
    ∃ rows, e.store.messageRows t.table = .ok rows ∧ Tidy rows (t.partition u) ∧
      backlog rows (t.partition u) u = b
  refine Engine.follows (R := Stands) ⟨rows, hrows, htidy, rfl⟩ fun r _ e b hstands => ?_
  obtain ⟨rows, hrows, htidy, rfl⟩ := hstands
  obtain ⟨-, rows', hrows', hfollows⟩ := r.serve_spec hrows
  exact ⟨rows', hrows', hfollows u htidy⟩

theorem backlog_empty (p : String) (u : SubscriberId) : backlog .empty p u = {} := rfl

theorem exists_rows_of_empty (hempty : e.store.messageRows t.table = .ok .empty)
    (requests : List Request) (u : SubscriberId) :
    ∃ rows, (serveAll t e requests).store.messageRows t.table = .ok rows ∧
      Tidy rows (t.partition u) ∧
      backlog rows (t.partition u) u = backlogAfter t u e requests := by
  obtain ⟨rows, hrows, htidy, hbacklog⟩ :=
    exists_rows_serveAll hempty (tidy_empty (t.partition u)) requests
  refine ⟨rows, hrows, htidy, ?_⟩
  rw [hbacklog, backlogAfter, accepted_eq_filter ⟨_, hempty⟩, backlog_empty]

theorem partition_eq_iff (h : t.pseudonym.enabled = false) (u v : SubscriberId) :
    t.partition v = t.partition u ↔ v = u := by
  unfold TableHandle.partition Pseudonym.partition Pseudonym.apply
  rw [h]
  constructor
  · exact Ident.simple_injective
  · rintro rfl
    rfl

/-- What is read after a run from the empty table: of the queue the first notifications after the
watermark, and of the topics the first, with one less if the metadata row takes its share of the
limit. -/
theorem reads_agree_with_backlog (hempty : e.store.messageRows t.table = .ok .empty)
    (requests : List Request) (u : SubscriberId) (limit : Nat) (watermark : Option UInt64)
    (hwatermark : ∀ w ∈ watermark, w ≤ SortKey.maxPosition) :
    accepted t e requests = requests.filter Request.isAdmitted ∧
    (t.pseudonym.enabled = false → ∀ v, t.partition v = t.partition u ↔ v = u) ∧
    (Action.run (fetchAfter t u watermark limit) { serveAll t e requests with fault := none }).1 =
      .ok ⟨lastPosition (((backlogAfter t u e requests).queue watermark).take limit),
        ((backlogAfter t u e requests).queue watermark).take limit⟩ ∧
    (Action.run (fetch t u limit) { serveAll t e requests with fault := none }).1 =
      .ok ⟨if limit = 0 then none else (backlogAfter t u e requests).readPosition,
        (backlogAfter t u e requests).topics.take
          (if (backlogAfter t u e requests).hasProfile then limit - 1 else limit)⟩ := by
  obtain ⟨rows, hrows, htidy, hbacklog⟩ := exists_rows_of_empty hempty requests u
  refine ⟨accepted_eq_filter ⟨_, hempty⟩ requests, fun h => partition_eq_iff h u, ?_, ?_⟩
  · obtain ⟨stats, hrun⟩ := htidy.run_fetchAfter
      (e := { serveAll t e requests with fault := none }) hrows rfl hwatermark limit
    rw [hrun, hbacklog]
  · obtain ⟨stats, hrun⟩ := htidy.run_fetch
      (e := { serveAll t e requests with fault := none }) hrows rfl limit
    rw [hrun, hbacklog]

theorem isValid_january : TableName.isValid "message_2024_01" = true := by decide

def januaryTable : TableHandle where
  table := "message_2024_01"
  valid_table := isValid_january
  maxTtl_le := UInt64.le_refl maxRetention

def januaryEngine : Engine where
  store := ⟨SortedMap.empty.insert januaryTable.table (.messages .empty)⟩

def queuedNotification : Notification where
  subscriber := ⟨⟨1⟩⟩
  channel := ⟨⟨2⟩⟩
  timestamp := 0
  position := some 100
  messageId := "m"

/-- A topic and a queued notification in a table with a metadata row. -/
theorem reads_agree_with_backlog_january :
    januaryEngine.store.messageRows januaryTable.table = .ok .empty ∧
    (Action.run (fetchAfter januaryTable ⟨⟨1⟩⟩ (some 99) 1)
      { serveAll januaryTable januaryEngine
          [⟨⟨5⟩, none, .store queuedNotification⟩, ⟨⟨6⟩, none, .markRead ⟨⟨1⟩⟩ 99⟩,
            ⟨⟨7⟩, some ⟨0, .transient "busy"⟩, .delete queuedNotification⟩] with
        fault := none }).1 =
      .ok ⟨some 100, [queuedNotification.storedAt ⟨⟨1⟩⟩ (.queued 100 ⟨⟨2⟩⟩ (by decide))]⟩ := by
  have hempty : januaryEngine.store.messageRows januaryTable.table = .ok .empty := by decide
  have hwatermark : ∀ w ∈ some (99 : UInt64), w ≤ SortKey.maxPosition := by
    rintro w ⟨⟩
    decide
  refine ⟨hempty, ?_⟩
  rw [(reads_agree_with_backlog hempty _ ⟨⟨1⟩⟩ 1 (some 99) hwatermark).2.2.1]
  decide +kernel

/-- The flag of the oldest layout goes before the position: a delete with both is accepted, names
the version that is stored at its position, and leaves it there. The clock stands in for a position
in stores alone: a delete without one is refused in the very millisecond of the store. -/
theorem delete_by_flag_or_clock_keeps :
    (accepted januaryTable januaryEngine
      [⟨⟨5⟩, none, .store queuedNotification⟩,
        ⟨⟨6⟩, none,
          .delete { queuedNotification with updateId := some "m", legacy := true }⟩]).length = 2 ∧
    (Action.run (fetchAfter januaryTable ⟨⟨1⟩⟩ none 10)
      { serveAll januaryTable januaryEngine
          [⟨⟨5⟩, none, .store queuedNotification⟩,
            ⟨⟨6⟩, none,
              .delete { queuedNotification with updateId := some "m", legacy := true }⟩] with
        fault := none }).1 =
      .ok ⟨some 100, [queuedNotification.storedAt ⟨⟨1⟩⟩ (.queued 100 ⟨⟨2⟩⟩ (by decide))]⟩ ∧
    (accepted januaryTable januaryEngine
      [⟨⟨100⟩, none, .store { queuedNotification with position := none }⟩,
        ⟨⟨100⟩, none, .delete { queuedNotification with position := none }⟩]).length = 1 ∧
    (Action.run (fetchAfter januaryTable ⟨⟨1⟩⟩ none 10)
      { serveAll januaryTable januaryEngine
          [⟨⟨100⟩, none, .store { queuedNotification with position := none }⟩,
            ⟨⟨100⟩, none, .delete { queuedNotification with position := none }⟩] with
        fault := none }).1 =
      .ok ⟨some 100, [queuedNotification.storedAt ⟨⟨1⟩⟩ (.queued 100 ⟨⟨2⟩⟩ (by decide))]⟩ := by
  decide +kernel

end PushQueue.Mailbox
