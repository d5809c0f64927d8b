import PushQueue.Proofs.Mailbox.Reads
import PushQueue.Proofs.Mailbox.Refinement
import PushQueue.Proofs.Runs
import PushQueue.Proofs.Services

/-!
What the services write they can read. Every row that a service leaves can be read back, so that
from empty tables no run of services comes to a state in which a read meets a row that it does not
understand; a watermark that is out of range can come from the caller alone.
-/

namespace PushQueue

def StoreError.isUnreadable : StoreError → Bool
  | .invalidKey _ | .invalidIdent _ | .malformedRow .. | .serialization _ => true
  | .transient _ | .unavailable _ | .legacyWrite _ | .invalidTableName _ | .newerSchema _
  | .config _ => false

namespace Store

def Legible (s : Store) : Prop :=
  ∀ name rows, s.messageRows name = .ok rows → Mailbox.AllLegible rows

variable {s s' : Store} {name p : String} {rows : MessageRows} {α : Type} {a : α}

theorem isUnreadable_of_table {error : StoreError} (h : s.table name = .error error) :
    error.isUnreadable = false := by
  unfold Store.table checkName at h
  by_cases hname : TableName.isValid name = true
  · rw [if_pos hname] at h
    cases hget : s.tables.get? name with
    | none =>
      rw [hget] at h
      cases h
      rfl
    | some table =>
      rw [hget] at h
      cases h
  · rw [if_neg hname] at h
    cases h
    rfl

theorem isUnreadable_of_messageRows {error : StoreError} (h : s.messageRows name = .error error) :
    error.isUnreadable = false := by
  unfold messageRows at h
  split at h
  next htable =>
    cases h
    exact isUnreadable_of_table htable
  next => cases h
  next =>
    cases h
    rfl

theorem query_of_error {error : StoreError} (h : s.messageRows name = .error error)
    (partition : String) (range : KeyRange) (limit : Nat) :
    s.query name partition range limit = .error error := by
  rw [query, h]
  rfl

theorem Legible.setTable (h : s.Legible) (hname : TableName.isValid name = true)
    (hrows : Mailbox.AllLegible rows) : (s.setTable name (.messages rows)).Legible := by
  intro other rows' hother
  by_cases hne : name = other
  · subst hne
    rw [messageRows_setTable hname] at hother
    exact Except.ok.inj hother ▸ hrows
  · rw [messageRows_setTable_of_ne hne] at hother
    exact h other rows' hother

theorem Legible.updateMessages {f : MessageRows → α × MessageRows} (h : s.Legible)
    (hupdate : updateMessages name f s = .ok (a, s'))
    (hf : ∀ rows, Mailbox.AllLegible rows → Mailbox.AllLegible (f rows).2) : s'.Legible := by
  obtain ⟨rows, hrows, -, rfl⟩ := exists_rows_of_updateMessages hupdate
  exact h.setTable (isValid_of_table (messageRows_eq_ok_iff.1 hrows)) (hf rows (h name rows hrows))

theorem Legible.setTable_routers {routers : RouterRows} (h : s.Legible)
    (hname : s.routerRows name = .ok routers) (routers' : RouterRows) :
    (s.setTable name (.routers routers')).Legible := by
  intro other rows hother
  have hne : name ≠ other := by
    rintro rfl
    have hvalid := isValid_of_table (routerRows_eq_ok_iff.1 hname)
    rw [messageRows_eq_ok_iff, table_setTable hvalid] at hother
    cases hother
  rw [messageRows_setTable_of_ne hne] at hother
  exact h other rows hother

theorem Legible.updateRouters {f : RouterRows → α × RouterRows} (h : s.Legible)
    (hupdate : updateRouters name f s = .ok (a, s')) : s'.Legible := by
  obtain ⟨routers, hrouters, -, rfl⟩ := exists_rows_of_updateRouters hupdate
  exact h.setTable_routers hrouters _

end Store

namespace EngineCall

variable {owns : String → Prop} {α : Type} {f : Store → Except StoreError (α × Store)}
  {s s' : Store} {a : α}

theorem legible_of_ok (h : EngineCall owns f) (hf : f s = .ok (a, s')) (hs : s.Legible) :
    s'.Legible := by
  have hread {β : Type} {x : Except StoreError β} {g : β → α × Store}
      (hx : x.map g = .ok (a, s')) (hg : ∀ b, (g b).2 = s) : s'.Legible := by
    obtain ⟨b, -, heq⟩ := map_eq_ok_iff.1 hx
    rwa [show s' = s by rw [← hg b, heq]]
  cases h with
  | getRow name hkey => exact hread hf fun _ => rfl
  | query name range limit hp => exact hread hf fun _ => rfl
  | putRow name hkey hlegible => exact hs.updateMessages hf fun rows hrows => hrows.insert hlegible
  | putRows name hkeys hlegible =>
    unfold Store.putRows at hf
    split at hf
    · exact hread hf fun _ => rfl
    · exact hs.updateMessages hf fun rows hrows => hrows.insertAll hlegible
  | @deleteRow name key updateId hkey =>
    exact hs.updateMessages hf fun rows hrows =>
      hrows.mono fun k content => Mailbox.get?_of_get?_deleted
  | @updateChannels name p update expiry hp hids =>
    refine hs.updateMessages hf fun rows hrows => ?_
    have hids' := (hrows.areIds_channels p).apply hids
    have hunread : ∀ w ∈ (none : Option UInt64), w ≤ SortKey.maxPosition :=
      fun w hw => absurd hw (Option.not_mem_none w)
    refine hrows.upsert (Mailbox.legible_metadata_iff.2 ⟨hids', hunread⟩) fun stored hstored => ?_
    exact Mailbox.legible_metadata_iff.2 ⟨hids', (Mailbox.legible_metadata_iff.1 hstored).2⟩
  | setReadPosition name expiry hp hle =>
    have hposition : ∀ w ∈ some _, w ≤ SortKey.maxPosition := fun w hw => Option.some.inj hw ▸ hle
    refine hs.updateMessages hf fun rows hrows => hrows.upsert ?_ fun stored hstored => ?_
    · exact Mailbox.legible_metadata_iff.2 ⟨Mailbox.areIds_empty, hposition⟩
    · exact Mailbox.legible_metadata_iff.2 ⟨(Mailbox.legible_metadata_iff.1 hstored).1, hposition⟩
  | getRouter name hp => exact hread hf fun _ => rfl
  | putRouter name new hp => exact hs.updateRouters hf
  | changeRouter name holds change hp => exact hs.updateRouters hf
  | @deletePartition name p hp =>
    obtain ⟨table, htable, heq⟩ := map_eq_ok_iff.1 hf
    cases table with
    | messages rows =>
      obtain ⟨-, rfl⟩ := Prod.mk.inj heq
      refine hs.setTable (Store.isValid_of_table htable) ?_
      refine (hs name rows (Store.messageRows_eq_ok_iff.2 htable)).mono fun k content hget => ?_
      rw [SortedMap.get?_filter] at hget
      exact (Option.filter_eq_some_iff.1 hget).1
    | routers rows =>
      obtain ⟨-, rfl⟩ := Prod.mk.inj heq
      exact hs.setTable_routers (Store.routerRows_eq_ok_iff.2 htable) _

end EngineCall

section Reads

variable {t : TableHandle} {u : SubscriberId} {e : Engine} {rows : MessageRows} {limit : Nat}
  {watermark : Option UInt64} {error : StoreError}

theorem fetch_calm (hs : e.store.Legible) (hfault : e.fault = none) (t : TableHandle)
    (u : SubscriberId) (limit : Nat) :
    (∃ error e', Action.run (Mailbox.fetch t u limit) e = (.error error, e') ∧
      error.isUnreadable = false) ∨
    ∃ page stats, Action.run (Mailbox.fetch t u limit) e = (.ok page, { e with stats }) ∧
      ∀ w ∈ page.timestamp, w ≤ SortKey.maxPosition := by
  cases hrows : e.store.messageRows t.table with
  | error error =>
    left
    have hquery := Store.query_of_error hrows (t.partition u) (.below SortKey.topicUpperBound) limit
    obtain ⟨stats, hrun⟩ : ∃ stats, Action.run (Mailbox.fetch t u limit) e =
        (.error error, { e with stats }) := by
      apply Action.run_tracked
      simp only [Action.run_bind, Action.run_read hfault, hquery]
    exact ⟨error, _, hrun, Store.isUnreadable_of_messageRows hrows⟩
  | ok rows =>
    right
    have hlegible := hs t.table rows hrows
    obtain ⟨stats, hrun⟩ := (hlegible.tidy (t.partition u)).run_fetch hrows hfault limit
    refine ⟨_, stats, hrun, fun w hw => ?_⟩
    obtain ⟨-, hw⟩ := Option.ite_none_left_eq_some.1 hw
    obtain ⟨content, hget, hw⟩ := Option.bind_eq_some_iff.1 hw
    exact (Mailbox.legible_metadata_iff.1 (hlegible _ content hget)).2 w hw

theorem fetchAfter_calm (hs : e.store.Legible) (hfault : e.fault = none)
    (h : (Action.run (Mailbox.fetchAfter t u watermark limit) e).1 = .error error)
    (hunreadable : error.isUnreadable = true) :
    ∃ w, watermark = some w ∧ SortKey.maxPosition < w ∧
      error = .invalidKey (.positionOutOfRange w) := by
  by_cases hwatermark : ∀ w ∈ watermark, w ≤ SortKey.maxPosition
  · exfalso
    cases hrows : e.store.messageRows t.table with
    | error missing =>
      obtain ⟨bound, hbound, -⟩ := Place.exists_lowerBound hwatermark
      have hquery := Store.query_of_error hrows (t.partition u) (.above bound) limit
      obtain ⟨stats, hrun⟩ : ∃ stats, Action.run (Mailbox.fetchAfter t u watermark limit) e =
          (.error missing, { e with stats }) := by
        apply Action.run_tracked
        simp only [hbound, KeyError.orStore, Action.run_bind, Action.run_ofExcept,
          Action.run_read hfault, hquery]
      rw [hrun] at h
      cases h
      rw [Store.isUnreadable_of_messageRows hrows] at hunreadable
      cases hunreadable
    | ok rows =>
      obtain ⟨stats, hrun⟩ := ((hs t.table rows hrows).tidy (t.partition u)).run_fetchAfter hrows
        hfault hwatermark limit
      rw [hrun] at h
      cases h
  · simp only [not_forall, UInt64.not_le] at hwatermark
    obtain ⟨w, rfl, hw⟩ := hwatermark
    refine ⟨w, rfl, hw, ?_⟩
    have hbound : SortKey.timestampLowerBound (some w) = .error (.positionOutOfRange w) := by
      simp only [SortKey.timestampLowerBound, SortKey.checkPosition, if_pos hw]
      rfl
    obtain ⟨stats, hrun⟩ : ∃ stats, Action.run (Mailbox.fetchAfter t u (some w) limit) e =
        (.error (.invalidKey (.positionOutOfRange w)), { e with stats }) := by
      apply Action.run_tracked
      rw [hbound]
      exact Action.run_ofExcept_bind _ _ e
    rw [hrun] at h
    exact (Except.error.inj h).symm

theorem all_calm (hs : e.store.Legible) (hfault : e.fault = none)
    (h : (Action.run (Channels.all t u) e).1 = .error error) : error.isUnreadable = false := by
  cases hrows : e.store.messageRows t.table with
  | error missing =>
    have hrow : e.store.getRow t.table (RowKey.metadata (t.partition u)) = .error missing := by
      rw [Store.getRow, hrows]
      rfl
    obtain ⟨stats, hrun⟩ : ∃ stats, Action.run (Channels.all t u) e =
        (.error missing, { e with stats }) := by
      apply Action.run_tracked
      simp only [Action.run_bind, Action.run_read hfault, hrow]
    rw [hrun] at h
    cases h
    exact Store.isUnreadable_of_messageRows hrows
  | ok rows =>
    exfalso
    obtain ⟨answer, hprofile⟩ :
        ∃ answer, Channels.profile rows (t.partition u) = .ok answer := by
      unfold Channels.profile
      cases hget : rows.get? (RowKey.metadata (t.partition u)) with
      | none => exact ⟨_, rfl⟩
      | some content =>
        obtain ⟨hids, -⟩ := Mailbox.legible_metadata_iff.1 (hs t.table rows hrows _ content hget)
        obtain ⟨channels, hread⟩ := hids.exists_readAll
        simp only [hread]
        exact ⟨_, rfl⟩
    obtain ⟨stats, hrun⟩ := Channels.run_all hrows hfault u
    rw [hrun, hprofile] at h
    cases h

theorem queue_calm (hs : e.store.Legible) (hfault : e.fault = none)
    (h : (Action.run (Mailbox.check.queue t u limit watermark) e).1 = .error error)
    (hunreadable : error.isUnreadable = true) :
    ∃ w, watermark = some w ∧ SortKey.maxPosition < w ∧
      error = .invalidKey (.positionOutOfRange w) := by
  unfold Mailbox.check.queue at h
  rw [Action.run_bind] at h
  cases hrun : Action.run (Mailbox.fetchAfter t u watermark limit) e with
  | mk result e' =>
    rw [hrun] at h
    cases result with
    | ok page => cases h
    | error error' =>
      obtain rfl : error' = error := Except.error.inj h
      exact fetchAfter_calm hs hfault (congrArg Prod.fst hrun) hunreadable

/-- A watermark out of range is the caller's own: the one that is stored is in range. -/
theorem check_calm (hs : e.store.Legible) (hfault : e.fault = none) {includeTopics : Bool}
    (h : (Action.run (Mailbox.check t u includeTopics watermark limit) e).1 = .error error)
    (hunreadable : error.isUnreadable = true) :
    ∃ w, watermark = some w ∧ SortKey.maxPosition < w ∧
      error = .invalidKey (.positionOutOfRange w) := by
  unfold Mailbox.check at h
  cases includeTopics with
  | false => exact queue_calm hs hfault h hunreadable
  | true =>
    simp only [↓reduceIte] at h
    rw [Action.run_bind] at h
    rcases fetch_calm hs hfault t u limit with
      ⟨error', e', hrun, hreadable⟩ | ⟨page, stats, hrun, hstored⟩
    · rw [hrun] at h
      obtain rfl : error' = error := Except.error.inj h
      rw [hreadable] at hunreadable
      cases hunreadable
    · rw [hrun] at h
      cases hempty : page.messages.isEmpty with
      | false =>
        simp only [hempty] at h
        cases h
      | true =>
        simp only [hempty, ↓reduceIte] at h
        obtain ⟨w, hw, hlt, herror⟩ := queue_calm (e := { e with stats }) hs hfault h hunreadable
        cases htimestamp : page.timestamp with
        | none =>
          rw [htimestamp] at hw
          exact ⟨w, hw, hlt, herror⟩
        | some stored =>
          rw [htimestamp] at hw
          obtain rfl : stored = w := Option.some.inj hw
          exact absurd hlt (UInt64.not_lt.2 (hstored stored htimestamp))

/-- A failure to come ends an action in its own words; else it ends as it would without one. -/
theorem error_of_calm {α : Type} {act : Action α}
    (hact : Action.Built (EngineCall fun _ => True) act)
    (hfault : ∀ f ∈ e.fault, f.error.isUnreadable = false)
    (h : (Action.run act e).1 = .error error) :
    error.isUnreadable = false ∨ (Action.run act { e with fault := none }).1 = .error error := by
  have hcalmer : Action.Calmer e { e with fault := none } := ⟨rfl, rfl⟩
  rcases hact.calm hcalmer with ⟨f, hf, herror⟩ | ⟨hresult, -⟩
  · obtain rfl : error = f.error := Except.error.inj (h.symm.trans herror)
    exact .inl (hfault f hf)
  · exact .inr (hresult.symm.trans h)

end Reads

section Runs

variable {e : Engine}

structure Attempt where
  service : Service
  fault : Option Fault := none

def Attempt.step (e : Engine) (a : Attempt) : Engine :=
  (Action.run a.service.action { e with fault := a.fault }).2

def attemptAll (e : Engine) (attempts : List Attempt) : Engine := e.after Attempt.step attempts

theorem attemptAll_append (e : Engine) (before later : List Attempt) :
    attemptAll e (before ++ later) = attemptAll (attemptAll e before) later :=
  Engine.after_append Attempt.step e before later

theorem Service.legible_run (s : Service) (h : e.store.Legible) :
    (Action.run s.action e).2.store.Legible :=
  s.built.steps (R := fun s s' => s.Legible → s'.Legible) (fun _ => id)
    (fun hfirst hsecond hs => hsecond (hfirst hs)) (fun hcall _ _ _ => hcall.legible_of_ok) e h

theorem legible_attemptAll (h : e.store.Legible) (attempts : List Attempt) :
    (attemptAll e attempts).store.Legible :=
  Engine.holds_after (P := fun e => e.store.Legible) h fun a _ e h =>
    a.service.legible_run (e := { e with fault := a.fault }) h

structure Understood (e : Engine) : Prop where
  fetch : ∀ t u limit error, (Action.run (Mailbox.fetch t u limit) e).1 = .error error →
    error.isUnreadable = false
  channels : ∀ t u error, (Action.run (Channels.all t u) e).1 = .error error →
    error.isUnreadable = false
  /-- Only a watermark of the caller is ever out of range. -/
  fetchAfter : ∀ t u watermark limit error,
    (Action.run (Mailbox.fetchAfter t u watermark limit) e).1 = .error error →
    error.isUnreadable = true → ∃ w, watermark = some w ∧ SortKey.maxPosition < w ∧
      error = .invalidKey (.positionOutOfRange w)
  check : ∀ t u includeTopics watermark limit error,
    (Action.run (Mailbox.check t u includeTopics watermark limit) e).1 = .error error →
    error.isUnreadable = true → ∃ w, watermark = some w ∧ SortKey.maxPosition < w ∧
      error = .invalidKey (.positionOutOfRange w)
  notLegacy : ∀ name rows k content key, e.store.messageRows name = .ok rows →
    rows.get? k = some content → SortKey.parse k.sortKey = .ok key → key.isLegacy = false

theorem Mailbox.Legible.isLegacy {k : RowKey} {content : RowContent} {key : SortKey}
    (h : Legible k content) (hparse : SortKey.parse k.sortKey = .ok key) :
    key.isLegacy = false := by
  cases h with
  | profile hk =>
    rw [hk, RowKey.metadata, SortKey.parse_metadata] at hparse
    cases hparse
  | notification place hplace =>
    rw [← hplace, Place.rowKey, place.parse_encode_key] at hparse
    rw [← Except.ok.inj hparse]
    exact place.isLegacy_key

theorem Store.Legible.understood (h : e.store.Legible)
    (hfault : ∀ f ∈ e.fault, f.error.isUnreadable = false) : Understood e := by
  have hcalm : ({ e with fault := none } : Engine).store.Legible := h
  have hqueries (t : TableHandle) (u : SubscriberId) :
      Service.Queries (EngineCall fun _ => True) t u := Service.queries_of_owns trivial
  constructor
  case fetch =>
    intro t u limit error herror
    have hbuilt := Service.built_fetch (hqueries t u) limit
    rcases error_of_calm hbuilt hfault herror with hreadable | herror
    · exact hreadable
    · rcases fetch_calm hcalm rfl t u limit with
        ⟨error', e', hrun, hreadable⟩ | ⟨page, stats, hrun, -⟩
      · rw [hrun] at herror
        exact Except.error.inj herror ▸ hreadable
      · rw [hrun] at herror
        cases herror
  case channels =>
    intro t u error herror
    have hbuilt : Action.Built (EngineCall fun _ => True) (Channels.all t u) :=
      Service.built_all (.getRow _ trivial)
    rcases error_of_calm hbuilt hfault herror with hreadable | herror
    · exact hreadable
    · exact all_calm hcalm rfl herror
  case fetchAfter =>
    intro t u watermark limit error herror hunreadable
    have hbuilt := Service.built_fetchAfter (hqueries t u) watermark limit
    rcases error_of_calm hbuilt hfault herror with hreadable | herror
    · rw [hreadable] at hunreadable
      cases hunreadable
    · exact fetchAfter_calm hcalm rfl herror hunreadable
  case check =>
    intro t u includeTopics watermark limit error herror hunreadable
    have hbuilt := Service.built_check (hqueries t u) includeTopics watermark limit
    rcases error_of_calm hbuilt hfault herror with hreadable | herror
    · rw [hreadable] at hunreadable
      cases hunreadable
    · exact check_calm hcalm rfl herror hunreadable
  case notLegacy =>
    intro name rows k content key hrows hget
    exact (h name rows hrows k content hget).isLegacy

/-- Whatever services are asked for in whatever order, no read meets a row that it does not
understand, if the message tables were empty at first. -/
theorem every_row_understood
    (hempty : ∀ name rows, e.store.messageRows name = .ok rows → rows = .empty)
    (attempts : List Attempt) {fault : Option Fault}
    (hfault : ∀ f ∈ fault, f.error.isUnreadable = false) :
    Understood { attemptAll e attempts with fault } := by
  have hlegible : e.store.Legible := by
    intro name rows hrows
    rw [hempty name rows hrows]
    exact Mailbox.allLegible_empty
  exact Store.Legible.understood (e := { attemptAll e attempts with fault })
    (legible_attemptAll hlegible attempts) hfault

open Mailbox

/-- Channels, a topic, a queued notification and a read position, and a move that fails. -/
def januaryAttempts : List Attempt :=
  [⟨.register januaryTable ⟨5⟩ ⟨⟨1⟩⟩ ⟨⟨2⟩⟩ (some 60), none⟩,
    ⟨.store januaryTable ⟨5⟩ { queuedNotification with topic := some "news" }, none⟩,
    ⟨.store januaryTable ⟨5⟩ queuedNotification, none⟩,
    ⟨.markRead januaryTable ⟨6⟩ ⟨⟨1⟩⟩ SortKey.maxPosition, none⟩,
    ⟨.move januaryTable januaryTable ⟨januaryTable, 1⟩ ⟨⟨7⟩, 0⟩ ⟨⟨1⟩⟩, some ⟨1, .transient "busy"⟩⟩]

theorem every_row_understood_january :
    (∀ name rows, januaryEngine.store.messageRows name = .ok rows → rows = .empty) ∧
    (∀ f ∈ some (Fault.mk 0 (.unavailable "gone")), f.error.isUnreadable = false) ∧
    Understood { attemptAll januaryEngine januaryAttempts with
      fault := some ⟨0, .unavailable "gone"⟩ } ∧
    (Action.run (check januaryTable ⟨⟨1⟩⟩ true (some 10000000000000000000) 5)
      { attemptAll januaryEngine [⟨.store januaryTable ⟨5⟩ queuedNotification, none⟩] with
        fault := none }).1 = .error (.invalidKey (.positionOutOfRange 10000000000000000000)) := by
  have hempty : ∀ name rows, januaryEngine.store.messageRows name = .ok rows → rows = .empty := by
    intro name rows hrows
    have hmem := (SortedMap.mem_entries_iff _ _ _).2
      (Store.get?_of_table (Store.messageRows_eq_ok_iff.1 hrows))
    obtain ⟨-, hrows⟩ := Prod.mk.inj (List.mem_singleton.1 hmem)
    exact Table.messages.inj hrows
  have hfault : ∀ f ∈ some (Fault.mk 0 (.unavailable "gone")), f.error.isUnreadable = false := by
    rintro f ⟨⟩
    rfl
  exact ⟨hempty, hfault, every_row_understood hempty januaryAttempts hfault, by decide +kernel⟩

end Runs

end PushQueue
