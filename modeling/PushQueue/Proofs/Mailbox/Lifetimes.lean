import PushQueue.Proofs.Mailbox.Ages
import PushQueue.Proofs.Mailbox.Grants
import PushQueue.Proofs.Mailbox.Ledger
import PushQueue.Proofs.Sweep

/-!
Lifetimes under the sweep. A row stays up to the last second of the lifetime that it was granted
when it was written, whatever sweeps come until then, and the first complete sweep after that second
takes it away. But where the name of the table shadows what is offered, the metadata row keeps the
second that it got first.
-/

namespace PushQueue.Mailbox

variable {t : TableHandle} {k : RowKey} {v : Visit} {e : Engine} {rows : MessageRows} {last : Nat}
  {settings : Settings} {now : Instant} {fault : Option Fault}

def rowAt (t : TableHandle) (k : RowKey) (e : Engine) : Option RowContent :=
  (e.store.messageRows t.table).toOption.bind fun rows => rows.get? k

theorem rowAt_eq (hrows : e.store.messageRows t.table = .ok rows) : rowAt t k e = rows.get? k := by
  rw [rowAt, hrows]
  rfl

def sweepOnce (settings : Settings) (now : Instant) (fault : Option Fault) (e : Engine) :
    Except StoreError (Except AdminError Report) × Engine :=
  Action.run (Admin.run settings now .sweep) { e with fault }

/-- What happens to a table and beside it. -/
inductive Event (t : TableHandle) where
  | visit (v : Visit)
  | sweep (settings : Settings) (now : Instant) (fault : Option Fault)
  /-- Anything that leaves the rows of the table as they are. -/
  | elsewhere (step : Engine → Engine)
    (spares : ∀ e, (step e).store.messageRows t.table = e.store.messageRows t.table)

namespace Event

def serve (e : Engine) : Event t → Engine
  | visit v => (v.serve t e).2
  | sweep settings now fault => (sweepOnce settings now fault e).2
  | elsewhere step _ => step e

def IsTimely : Event t → Prop
  | visit v => v.request.now.IsTimely
  | sweep _ now _ => now.IsTimely
  | elsewhere .. => True

def Spares (k : RowKey) (e : Engine) : Event t → Prop
  | visit v => v.rewrites t k e = false ∧ v.deletes t k e = false
  | sweep .. | elsewhere .. => True

def IsBy (last : Nat) : Event t → Prop
  | sweep _ now _ => now.seconds.toNat ≤ last
  | visit _ | elsewhere .. => True

instance : (event : Event t) → Decidable event.IsTimely
  | visit v => inferInstanceAs (Decidable v.request.now.IsTimely)
  | sweep _ now _ => inferInstanceAs (Decidable now.IsTimely)
  | elsewhere .. => .isTrue trivial

instance : (event : Event t) → Decidable (event.IsBy last)
  | sweep _ now _ => inferInstanceAs (Decidable (now.seconds.toNat ≤ last))
  | visit _ | elsewhere .. => .isTrue trivial

def writer? (k : RowKey) (e : Engine) : Event t → Option Visit
  | visit v => if v.rewrites t k e then some v else none
  | sweep .. | elsewhere .. => none

end Event

def runEvents (e : Engine) (events : List (Event t)) : Engine := e.after Event.serve events

def Spared (k : RowKey) (e : Engine) (events : List (Event t)) : Prop :=
  ∀ taken ∈ e.trace Event.serve events, taken.2.Spares k taken.1

def lastWriter (k : RowKey) (e : Engine) (events : List (Event t)) : Option Visit :=
  (e.trace Event.serve events).foldl (fun writer taken => (taken.2.writer? k taken.1).or writer) none

section Sweeps

variable {report : Report}

theorem rows_sweepOnce (hrows : e.store.messageRows t.table = .ok rows) (settings : Settings)
    (now : Instant) (fault : Option Fault) :
    (sweepOnce settings now fault e).2.store.messageRows t.table = .ok rows ∨
      (sweepOnce settings now fault e).2.store.messageRows t.table =
        .ok (Admin.kept now.seconds rows) := by
  simp only [Store.messageRows_eq_ok_iff, Store.table_eq_ok_iff t.valid_table] at hrows ⊢
  rcases Admin.swept_run settings now { e with fault } t.table with hsame | ⟨rows', hrows', hkept⟩
  · exact .inl (hsame.trans hrows)
  · obtain rfl : rows' = rows := Table.messages.inj (Option.some.inj (hrows'.symm.trans hrows))
    exact .inr hkept

theorem rows_of_report (hrows : e.store.messageRows t.table = .ok rows)
    (hreport : (sweepOnce settings now fault e).1 = .ok (.ok report)) :
    (sweepOnce settings now fault e).2.store.messageRows t.table =
      .ok (Admin.kept now.seconds rows) := by
  have hgives : (Admin.run settings now .sweep).Gives { e with fault } (.ok report)
      (sweepOnce settings now fault e).2.store := ⟨_, Prod.ext hreport rfl, rfl⟩
  obtain ⟨removed, -, -, hswept⟩ := Admin.sweep_of_gives hgives
  have hmem : t.table ∈ e.store.messageTables :=
    Admin.mem_messageTables.2 ⟨rows, Store.get?_of_table (Store.messageRows_eq_ok_iff.1 hrows)⟩
  obtain ⟨rows', n, hrows', hkept, -⟩ := hswept t.table hmem
  obtain rfl : rows = rows' := Except.ok.inj (hrows.symm.trans hrows')
  exact hkept

theorem get?_kept_of_expiry
    (hrow : ∀ content, rows.get? k = some content → content.expiry.toNat = last)
    (hlast : last < 2 ^ 63) (hnow : now.IsTimely) :
    (Admin.kept now.seconds rows).get? k =
      if last < now.seconds.toNat then none else rows.get? k := by
  have hseconds := hnow.seconds_lt
  rw [Admin.get?_kept]
  cases hget : rows.get? k with
  | none => rw [Option.filter_none, ite_self]
  | some content =>
    have hexpiry := hrow content hget
    have hexpired : expiredBefore now.seconds content = decide (last < now.seconds.toNat) := by
      rw [Bool.eq_iff_iff, decide_eq_true_iff, ← hexpiry]
      exact expiredBefore_iff (by omega) (hexpiry ▸ hlast)
    rw [Option.filter_some, hexpired]
    by_cases hlate : last < now.seconds.toNat <;> simp [hlate]

end Sweeps

section Events

theorem Event.step {event : Event t} (htable : HasTable t e) (htimely : event.IsTimely)
    (hspares : event.Spares k e)
    (hrow : ∀ content, rowAt t k e = some content → content.expiry.toNat = last)
    (hlast : last < 2 ^ 63) :
    HasTable t (event.serve e) ∧
      (rowAt t k (event.serve e) = rowAt t k e ∨
        rowAt t k (event.serve e) = none ∧ ¬ event.IsBy last) := by
  obtain ⟨rows, hrows⟩ := htable
  rw [rowAt_eq hrows] at hrow ⊢
  cases event with
  | visit v =>
    obtain ⟨hrewrites, hdeletes⟩ := hspares
    obtain ⟨-, rows', hrows', hrow'⟩ := v.serve_spec hrows
    refine ⟨⟨rows', hrows'⟩, .inl ?_⟩
    rw [serve, rowAt_eq hrows', hrow', Visit.onRow_of_not_rewrites hrows hrewrites, hdeletes]
    rfl
  | sweep settings now fault =>
    have hnow : now.IsTimely := htimely
    rcases rows_sweepOnce hrows settings now fault with hrows' | hrows'
    · exact ⟨⟨_, hrows'⟩, .inl (rowAt_eq hrows')⟩
    · refine ⟨⟨_, hrows'⟩, ?_⟩
      rw [serve, rowAt_eq hrows', get?_kept_of_expiry hrow hlast hnow]
      by_cases hlate : last < now.seconds.toNat
      · exact .inr ⟨if_pos hlate, Nat.not_le.2 hlate⟩
      · exact .inl (if_neg hlate)
  | elsewhere step spares =>
    have hrows' := (spares e).trans hrows
    exact ⟨⟨rows, hrows'⟩, .inl (rowAt_eq hrows')⟩

/-- While the row is spared, it stays or is swept away, which no sweep does by its last second. -/
theorem run_of_spared {events : List (Event t)} (htable : HasTable t e)
    (htimely : ∀ event ∈ events, event.IsTimely) (hspared : Spared k e events)
    (hrow : ∀ content, rowAt t k e = some content → content.expiry.toNat = last)
    (hlast : last < 2 ^ 63) :
    HasTable t (runEvents e events) ∧
      (rowAt t k (runEvents e events) = rowAt t k e ∨
        rowAt t k (runEvents e events) = none ∧ ¬ ∀ event ∈ events, event.IsBy last) := by
  let StaysOr (e' : Engine) : Prop :=
    HasTable t e' ∧ (rowAt t k e' = rowAt t k e ∨
      rowAt t k e' = none ∧ ¬ ∀ event ∈ events, event.IsBy last)
  refine Engine.holds_after_trace (P := StaysOr) ⟨htable, .inl rfl⟩ ?_
  rintro ⟨e', event⟩ htaken ⟨htable', hbefore⟩
  have hmem := Engine.mem_of_mem_trace htaken
  have hrow' : ∀ content, rowAt t k e' = some content → content.expiry.toNat = last := by
    intro content hcontent
    rcases hbefore with hsame | ⟨hgone, -⟩
    · exact hrow content (hsame ▸ hcontent)
    · cases hgone.symm.trans hcontent
  obtain ⟨htable'', hstep⟩ := event.step htable' (htimely event hmem) (hspared _ htaken) hrow' hlast
  refine ⟨htable'', ?_⟩
  rcases hstep with hsame | ⟨hgone, hlate⟩
  · rwa [hsame]
  · exact .inr ⟨hgone, fun hby => hlate (hby event hmem)⟩

/-- If the row is there, it expires as its last writer had it. -/
def Dated (t : TableHandle) (k : RowKey) (writer : Option Visit) (e : Engine) : Prop :=
  ∀ content, rowAt t k e = some content →
    ∃ v, writer = some v ∧ v.lastSecond? t k = some content.expiry.toNat

theorem Event.dated_serve {event : Event t} {writer : Option Visit}
    (hname : Store.offersShadowed t.table = false) (htable : HasTable t e)
    (htimely : event.IsTimely) (h : Dated t k writer e) :
    HasTable t (event.serve e) ∧ Dated t k ((event.writer? k e).or writer) (event.serve e) := by
  obtain ⟨rows, hrows⟩ := htable
  cases event with
  | visit v =>
    obtain ⟨-, rows', hrows', hrow'⟩ := v.serve_spec hrows
    refine ⟨⟨rows', hrows'⟩, ?_⟩
    intro content hcontent
    rw [serve, rowAt_eq hrows', hrow'] at hcontent
    rw [writer?]
    cases hrewrites : v.rewrites t k e with
    | true =>
      obtain ⟨hadmitted, last, hlast⟩ := (Visit.rewrites_iff hrows).1 hrewrites
      obtain ⟨content', hcontent', hexpiry⟩ :=
        Visit.expiry_onRow hname htimely hadmitted hlast (rows.get? k)
      obtain rfl : content = content' := Option.some.inj (hcontent.symm.trans hcontent')
      exact ⟨v, rfl, hexpiry ▸ hlast⟩
    | false =>
      rw [Visit.onRow_of_not_rewrites hrows hrewrites] at hcontent
      obtain ⟨-, hcontent⟩ := Option.ite_none_left_eq_some.1 hcontent
      exact h content ((rowAt_eq hrows).trans hcontent)
  | sweep settings now fault =>
    rcases rows_sweepOnce hrows settings now fault with hrows' | hrows'
    · refine ⟨⟨_, hrows'⟩, fun content hcontent => h content ?_⟩
      rw [rowAt_eq hrows, ← hcontent]
      exact (rowAt_eq hrows').symm
    · refine ⟨⟨_, hrows'⟩, fun content hcontent => h content ?_⟩
      rw [serve, rowAt_eq hrows', Admin.get?_kept, Option.filter_eq_some_iff] at hcontent
      exact (rowAt_eq hrows).trans hcontent.1
  | elsewhere step spares =>
    have hrows' := (spares e).trans hrows
    refine ⟨⟨rows, hrows'⟩, fun content hcontent => h content ?_⟩
    rw [rowAt_eq hrows, ← hcontent]
    exact (rowAt_eq hrows').symm

theorem dated_runEvents (hname : Store.offersShadowed t.table = false)
    (htable : HasTable t e) (h : Dated t k none e) {events : List (Event t)}
    (htimely : ∀ event ∈ events, event.IsTimely) :
    HasTable t (runEvents e events) ∧
      Dated t k (lastWriter k e events) (runEvents e events) := by
  refine Engine.follows_trace (R := fun e writer => HasTable t e ∧ Dated t k writer e) _
    ⟨htable, h⟩ ?_
  rintro ⟨e, event⟩ htaken writer ⟨htable, hdated⟩
  exact event.dated_serve hname htable (htimely event (Engine.mem_of_mem_trace htaken)) hdated

end Events

structure Lasts (t : TableHandle) (k : RowKey) (e : Engine) (last : Nat) : Prop where
  /-- Sweeps up to this second leave it. -/
  kept : ∀ events : List (Event t), (∀ event ∈ events, event.IsTimely) → Spared k e events →
    (∀ event ∈ events, event.IsBy last) →
    (rowAt t k (runEvents e events)).isSome ∧ rowAt t k (runEvents e events) = rowAt t k e
  /-- A sweep after it that gives a report takes it away, and it does not come back. -/
  gone : ∀ (events rest : List (Event t)) (settings : Settings) (now : Instant)
    (fault : Option Fault) (report : Report),
    (∀ event ∈ events ++ .sweep settings now fault :: rest, event.IsTimely) →
    Spared k e (events ++ .sweep settings now fault :: rest) →
    (sweepOnce settings now fault (runEvents e events)).1 = .ok (.ok report) →
    last < now.seconds.toNat →
    rowAt t k (runEvents e (events ++ .sweep settings now fault :: rest)) = none

theorem Lasts.of_expiry {content : RowContent} (htable : HasTable t e)
    (hcontent : rowAt t k e = some content) (hexpiry : content.expiry.toNat = last)
    (hlast : last < 2 ^ 63) : Lasts t k e last := by
  have hrow : ∀ content, rowAt t k e = some content → content.expiry.toNat = last := by
    intro content' hcontent'
    rwa [← Option.some.inj (hcontent.symm.trans hcontent')]
  constructor
  case kept =>
    intro events htimely hspared hby
    obtain ⟨-, hsame | ⟨-, hlate⟩⟩ := run_of_spared htable htimely hspared hrow hlast
    · rw [hsame, hcontent]
      exact ⟨rfl, rfl⟩
    · exact absurd hby hlate
  case gone =>
    intro events rest settings now fault report htimely hspared hreport hlate
    obtain ⟨hevents, -, hrest⟩ := Engine.forall_mem_trace_append.1 hspared
    obtain ⟨htimely, htimelyRest⟩ := List.forall_mem_append.1 htimely
    obtain ⟨hnow, htimelyRest⟩ := List.forall_mem_cons.1 htimelyRest
    obtain ⟨⟨rows, hrows⟩, hrun⟩ := run_of_spared htable htimely hevents hrow hlast
    have hswept := rows_of_report hrows hreport
    have hget : ∀ content, rows.get? k = some content → content.expiry.toNat = last := by
      intro content hget
      rw [← rowAt_eq hrows] at hget
      rcases hrun with hsame | ⟨hnone, -⟩
      · exact hrow content (hsame ▸ hget)
      · cases hnone.symm.trans hget
    have habsent : rowAt t k (sweepOnce settings now fault (runEvents e events)).2 = none := by
      rw [rowAt_eq hswept, get?_kept_of_expiry hget hlast hnow, if_pos hlate]
    have hnone : ∀ content, rowAt t k (sweepOnce settings now fault (runEvents e events)).2 =
        some content → content.expiry.toNat = last := fun _ h => nomatch habsent.symm.trans h
    obtain ⟨-, hafter⟩ := run_of_spared ⟨_, hswept⟩ htimelyRest hrest hnone hlast
    rw [runEvents, Engine.after_append]
    exact hafter.elim (fun hsame => hsame.trans habsent) And.left

structure Honoured (t : TableHandle) (e : Engine) (events : List (Event t)) : Prop where
  /-- The next write grants its row the lifetime that was asked for, cut down. -/
  lasts : ∀ (v : Visit) k last, v.request.now.IsTimely →
    (v.serve t (runEvents e events)).1.isOk = true → v.lastSecond? t k = some last →
    Lasts t k (v.serve t (runEvents e events)).2 last
  /-- No row is to stay longer than thirty days from when it was written last. -/
  bounded : ∀ k content, rowAt t k (runEvents e events) = some content →
    ∃ v, lastWriter k e events = some v ∧ v.lastSecond? t k = some content.expiry.toNat ∧
      content.expiry.toNat ≤ v.request.now.seconds.toNat + 2592000
  /-- Reads take nothing away and do not look at ages. -/
  ageless : ∀ (t' : TableHandle) (u : SubscriberId), Ageless t' (Channels.all t' u) ∧
    (∀ limit, Ageless t' (fetch t' u limit)) ∧
    (∀ watermark limit, Ageless t' (fetchAfter t' u watermark limit)) ∧
    ∀ includeTopics watermark limit, Ageless t' (check t' u includeTopics watermark limit)
  /-- A report gives for each message table how many rows are gone. -/
  report : ∀ settings now fault report e',
    sweepOnce settings now fault (runEvents e events) = (.ok (.ok report), e') →
    ∃ removed, report = .swept removed ∧
      removed.map Prod.fst = (runEvents e events).store.messageTables ∧
      ∀ name ∈ (runEvents e events).store.messageTables,
        Admin.SweptTable now.seconds (runEvents e events).store e'.store removed name
  /-- No sweep touches a router table. -/
  routers : ∀ settings now fault name rows,
    (runEvents e events).store.tables.get? name = some (.routers rows) →
    (sweepOnce settings now fault (runEvents e events)).2.store.tables.get? name =
      some (.routers rows)

theorem honoured_of_ne (hname : t.table ≠ "excluded")
    (hempty : e.store.messageRows t.table = .ok .empty) {events : List (Event t)}
    (htimely : ∀ event ∈ events, event.IsTimely) : Honoured t e events := by
  have hname : Store.offersShadowed t.table = false := decide_eq_false hname
  have hrun (k : RowKey) : HasTable t (runEvents e events) ∧
      Dated t k (lastWriter k e events) (runEvents e events) := by
    have hnone : Dated t k none e := by
      intro content hcontent
      rw [rowAt_eq hempty] at hcontent
      cases hcontent
    exact dated_runEvents hname ⟨_, hempty⟩ hnone htimely
  constructor
  case lasts =>
    intro v k last hnow haccepted hlast
    obtain ⟨⟨rows, hrows⟩, -⟩ := hrun k
    obtain ⟨hadmitted, rows', hrows', hrow'⟩ := v.serve_spec hrows
    obtain ⟨content, hcontent, hexpiry⟩ :=
      Visit.expiry_onRow hname hnow (hadmitted.symm.trans haccepted) hlast (rows.get? k)
    have hwritten : rowAt t k (v.serve t (runEvents e events)).2 = some content := by
      rw [rowAt_eq hrows', hrow', hcontent]
    exact .of_expiry ⟨rows', hrows'⟩ hwritten hexpiry
      ((Visit.lastSecond_le hlast).trans_lt hnow.seconds_lt)
  case bounded =>
    intro k content hcontent
    obtain ⟨v, hwriter, hlast⟩ := (hrun k).2 content hcontent
    exact ⟨v, hwriter, hlast, Visit.lastSecond_le hlast⟩
  case ageless =>
    intro t' u
    exact ⟨ageless_all t' u, ageless_fetch t' u, ageless_fetchAfter t' u, ageless_check t' u⟩
  case report =>
    intro settings now fault report e' hsweep
    exact Admin.sweep_of_gives (e := { runEvents e events with fault }) ⟨e', hsweep, rfl⟩
  case routers =>
    intro settings now fault name rows hrouters
    rcases Admin.swept_run settings now { runEvents e events with fault } name with
      hsame | ⟨rows', hmessages, -⟩
    · exact hsame.trans hrouters
    · cases hrouters.symm.trans hmessages

section Renewals

def registration (ttl : UInt64) : Visit :=
  plainVisit 5 (.register ⟨⟨1⟩⟩ firstChannel (some ttl))

def registrationKey (t : TableHandle) : RowKey :=
  RowKey.metadata (((registration 0).handle t).partition ⟨⟨1⟩⟩)

theorem isTimely_registration (ttl : UInt64) : (registration ttl).request.now.IsTimely := by
  have hsecond : ((1000 * 5 : Int) / 1000).toNat + 2592000 < 2 ^ 63 := by decide
  exact hsecond

theorem onRow_registration (t : TableHandle) (ttl : UInt64) (row : Option RowContent) :
    (registration ttl).onRow t (registrationKey t) row =
      some (upserted t.table
        (withChannels ((registration ttl).handle t) ⟨5000⟩ (.add (.singleton firstChannel.text))
          (some ttl) row) row) := by
  have hadmitted : (registration ttl).request.isAdmitted = true := rfl
  have hkey : RowKey.metadata (((registration ttl).handle t).partition ⟨⟨1⟩⟩) = registrationKey t :=
    rfl
  rw [Visit.onRow, if_pos hadmitted, ← (registration ttl).table_handle t]
  exact if_pos hkey

theorem lastSecond_registration (t : TableHandle) (ttl : UInt64) :
    (registration ttl).lastSecond? t (registrationKey t) = some (5 + min ttl.toNat 2592000) := by
  have hkey : RowKey.metadata (((registration ttl).handle t).partition ⟨⟨1⟩⟩) = registrationKey t :=
    rfl
  have hrequested : (registration ttl).request.call.requested? ((registration ttl).handle t) ⟨5000⟩
      (registrationKey t) = some (some ttl) := if_pos hkey
  exact congrArg (Option.map _) hrequested

/-- Ten seconds, and then a thousand for the same row. -/
def renewal (t : TableHandle) : List (Event t) :=
  [.visit (registration 10), .visit (registration 1000)]

/-- Where the name of the table shadows what is offered, the renewal is accepted, and the row keeps
the second that it had before. -/
theorem not_honoured_renewal (hname : t.table = "excluded") :
    ¬ Honoured t (emptyEngine t) (renewal t) := by
  intro hhonoured
  have hshadowed : Store.offersShadowed t.table = true := by
    rw [hname]
    rfl
  obtain ⟨-, rows₁, hrows₁, hrow₁⟩ := (registration 10).serve_spec (messageRows_emptyEngine t)
  obtain ⟨-, rows₂, hrows₂, hrow₂⟩ := (registration 1000).serve_spec hrows₁
  have hrow : rowAt t (registrationKey t) (runEvents (emptyEngine t) (renewal t)) =
      some (withChannels ((registration 10).handle t) ⟨5000⟩
        (.add (.singleton firstChannel.text)) (some 10) none {}) := by
    refine (rowAt_eq hrows₂).trans ?_
    rw [hrow₂, onRow_registration, hrow₁, onRow_registration, SortedMap.get?_empty]
    simp only [upserted, hshadowed, ↓reduceIte]
  have hwriter : lastWriter (registrationKey t) (emptyEngine t) (renewal t) =
      some (registration 1000) := by
    have hrewrites : (registration 1000).rewrites t (registrationKey t)
        ((registration 10).serve t (emptyEngine t)).2 = true :=
      (Visit.rewrites_iff hrows₁).2 ⟨rfl, _, lastSecond_registration t 1000⟩
    simp only [renewal, lastWriter, Engine.trace, List.foldl_cons, List.foldl_nil, Event.writer?,
      Event.serve, hrewrites, ↓reduceIte, Option.some_or]
  have hexpiry := Visit.toNat_expiryAt (isTimely_registration 10) t (some 10)
  obtain ⟨v, hv, hlast, -⟩ := hhonoured.bounded _ _ hrow
  obtain rfl : registration 1000 = v := Option.some.inj (hwriter.symm.trans hv)
  have hsecond := Option.some.inj ((lastSecond_registration t 1000).symm.trans hlast)
  have : 5 + 1000 = 5 + 10 := hsecond.trans hexpiry
  omega

/-- Whatever clients do with a table that was empty, and whatever sweeps come in between, lifetimes
are honoured to the second; but not where the name of the table shadows the rows that are
offered. -/
theorem lifetimes_honoured_iff (t : TableHandle) :
    (∀ (e : Engine) (events : List (Event t)), e.store.messageRows t.table = .ok .empty →
      (∀ event ∈ events, event.IsTimely) → Honoured t e events) ↔ t.table ≠ "excluded" := by
  constructor
  · intro hhonoured hname
    have htimely : ∀ event ∈ renewal t, event.IsTimely :=
      List.forall_mem_cons.2 ⟨isTimely_registration 10,
        List.forall_mem_singleton.2 (isTimely_registration 1000)⟩
    exact not_honoured_renewal hname (hhonoured _ _ (messageRows_emptyEngine t) htimely)
  · intro hname e events hempty htimely
    exact honoured_of_ne hname hempty htimely

def minuteVisit : Visit := plainVisit 100 (.store { queuedNotification with ttl := 60 })

def punctualSweep : Event januaryTable := .sweep {} ⟨160999⟩ none

def nextSweep : Event januaryTable := .sweep {} ⟨161000⟩ none

def minuteEvents : List (Event januaryTable) :=
  [.visit (registration 10), .visit minuteVisit, punctualSweep]

theorem lifetimes_honoured_iff_minute :
    januaryTable.table ≠ "excluded" ∧
    januaryEngine.store.messageRows januaryTable.table = .ok .empty ∧
    minuteVisit.lastSecond? januaryTable queuedKey = some 160 ∧
    (rowAt januaryTable queuedKey (runEvents januaryEngine minuteEvents)).isSome ∧
    rowAt januaryTable queuedKey (runEvents januaryEngine (minuteEvents ++ [nextSweep])) =
      none := by
  have hname : januaryTable.table ≠ "excluded" := by decide
  have hempty : januaryEngine.store.messageRows januaryTable.table = .ok .empty := by decide
  have htimely : ∀ event ∈ [punctualSweep, nextSweep], event.IsTimely :=
    List.forall_mem_cons.2 ⟨by decide, List.forall_mem_singleton.2 (by decide)⟩
  have hhonoured := (lifetimes_honoured_iff januaryTable).2 hname januaryEngine
    [.visit (registration 10)] hempty (List.forall_mem_singleton.2 (isTimely_registration 10))
  have hlast : minuteVisit.lastSecond? januaryTable queuedKey = some 160 := by decide +kernel
  have hlasts := hhonoured.lasts minuteVisit queuedKey 160 (by decide) (by decide +kernel) hlast
  obtain ⟨hpunctual, -⟩ := hlasts.kept [punctualSweep]
    (List.forall_mem_singleton.2 (htimely _ List.mem_cons_self))
    (List.forall_mem_singleton.2 trivial)
    (List.forall_mem_singleton.2 (by decide))
  have hreport : ((sweepOnce {} ⟨161000⟩ none
      (runEvents januaryEngine minuteEvents)).1.toOption.bind Except.toOption).isSome := by
    decide +kernel
  obtain ⟨report, hreport⟩ := Option.isSome_iff_exists.1 hreport
  obtain ⟨result, hresult, hreport⟩ := Option.bind_eq_some_iff.1 hreport
  rw [toOption_eq_some_iff] at hresult hreport
  subst hreport
  have hgone := hlasts.gone [punctualSweep] [] {} ⟨161000⟩ none report htimely
    (List.forall_mem_cons.2 ⟨trivial, List.forall_mem_singleton.2 trivial⟩) hresult (by decide)
  exact ⟨hname, hempty, hlast, hpunctual, hgone⟩

/-- The channel is registered anew for a thousand seconds, and a sweep after a hundred takes its row
away. -/
theorem renewal_ignored_in_shadowed :
    (emptyEngine shadowedTable).store.messageRows shadowedTable.table = .ok .empty ∧
    ((registration 1000).serve shadowedTable
      ((registration 10).serve shadowedTable (emptyEngine shadowedTable)).2).1.isOk = true ∧
    (registration 1000).lastSecond? shadowedTable (registrationKey shadowedTable) = some 1005 ∧
    (rowAt shadowedTable (registrationKey shadowedTable)
      (runEvents (emptyEngine shadowedTable) (renewal shadowedTable))).isSome ∧
    rowAt shadowedTable (registrationKey shadowedTable)
      (sweepOnce {} ⟨105000⟩ none
        (runEvents (emptyEngine shadowedTable) (renewal shadowedTable))).2 = none ∧
    ¬ Honoured shadowedTable (emptyEngine shadowedTable) (renewal shadowedTable) :=
  ⟨messageRows_emptyEngine shadowedTable, by decide +kernel,
    lastSecond_registration shadowedTable 1000, by decide +kernel, by decide +kernel,
    not_honoured_renewal rfl⟩

end Renewals

end PushQueue.Mailbox
