import Mathlib.Data.List.Chain
import Mathlib.Data.List.Induction
import PushQueue.Proofs.Removals
import PushQueue.Proofs.Router
import PushQueue.Proofs.Runs
import PushQueue.Proofs.Upkeep

/-!
Rotation over time. A rotation makes the tables of its month and of the month after it, so that no
month goes without its table as long as no two months in a row go by without a rotation; and a table
stays, with its rows, until its month is no longer retained.
-/

namespace PushQueue.Upkeep

inductive Event where
  | rotate (settings : Settings) (now : Instant) (fault : Option Fault)
  | sweep (settings : Settings) (now : Instant) (fault : Option Fault)
  | serve (service : Service) (fault : Option Fault)

namespace Event

def apply (e : Engine) : Event → Engine
  | rotate settings now fault => (Action.run (Admin.run settings now .rotate) { e with fault }).2
  | sweep settings now fault => (Action.run (Admin.run settings now .sweep) { e with fault }).2
  | serve service fault => (Action.run service.action { e with fault }).2

def date? : Event → Option Date
  | rotate _ now _ => some now.date
  | sweep .. | serve .. => none

def Succeeds (rotation : Rotation) (e : Engine) : Event → Prop
  | rotate settings now fault => settings.rotation = .ok rotation ∧
    ∃ report store, (Admin.run settings now .rotate).Gives { e with fault } (.ok report) store
  | sweep .. | serve .. => True

/-- What the event is to take away: an expired row, or one that a service is to delete. -/
def Removes (name : String) (k : RowKey) (e : Engine) : Event → Prop
  | rotate .. => False
  | sweep _ now _ => ∃ content,
    e.store.rowAt name k = some content ∧ expiredBefore now.seconds content = true
  | serve service _ => service.Deletes name k

end Event

def runEvents (e : Engine) (events : List Event) : Engine := e.after Event.apply events

def dates (events : List Event) : List Date := events.filterMap Event.date?

def Succeed (rotation : Rotation) (e : Engine) (events : List Event) : Prop :=
  ∀ taken ∈ e.trace Event.apply events, taken.2.Succeeds rotation taken.1

/-- From one rotation to the next no month is gone back, and at most two months are gone forward. -/
def Paced (day day' : Date) : Prop :=
  day.month ≤ day'.month ∧ day'.month.index ≤ day.month.index + 2

/-- Rotations from the first day to the last, all of which succeed, with sweeps and services around
them. -/
structure Maintains (rotation : Rotation) (e : Engine) (events : List Event) (first last : Date) :
    Prop where
  succeed : Succeed rotation e events
  paced : (dates events).IsChain Paced
  head : (dates events).head? = some first
  getLast : (dates events).getLast? = some last

/-- The retained months, from the month of the first day to the one after the last day, have their
tables. -/
def Covered (rotation : Rotation) (first last : Date) (s : Store) : Prop :=
  ∀ month, first.month ≤ month → month ≤ last.month.next → rotation.oldest last ≤ month →
    TableName.ofMonth rotation.stem month ∈ s.messageTables

/-- Rows of the table go only by events that are to take them away. -/
def OnlyRemoves (name : String) (e : Engine) (events : List Event) : Prop :=
  ∀ before event after, events = before ++ event :: after → ∀ k,
    ¬ event.Removes name k (runEvents e before) →
      (runEvents e before).store.Spares name k (runEvents e (before ++ [event])).store

variable {rotation : Rotation} {first last today : Date} {e : Engine} {event : Event}
  {events before after : List Event} {s s' : Store} {name router : String} {k : RowKey}
  {month : Month} {created dropped : List String}

section Steps

open Admin

theorem Event.upkept (hdate : event.date? = some today) (h : event.Succeeds rotation e) :
    ∃ router created dropped, Upkept rotation.stem router today.month (rotation.oldest today)
      e.store (event.apply e).store created dropped := by
  cases event with
  | rotate settings now fault =>
    obtain rfl := Option.some.inj hdate
    obtain ⟨hsettings, report, store, hgives⟩ := h
    obtain ⟨created, dropped, -, hupkept⟩ := rotate_of_gives ((run_rotate_iff hsettings).1 hgives)
    obtain ⟨e', hrun, rfl⟩ := hgives
    refine ⟨settings.tables.router, created, dropped, ?_⟩
    rw [Event.apply, hrun]
    exact hupkept
  | sweep | serve => cases hdate

theorem Event.mem_messageTables_apply (hdate : event.date? = none) (e : Engine) :
    name ∈ (event.apply e).store.messageTables ↔ name ∈ e.store.messageTables := by
  cases event with
  | rotate => cases hdate
  | sweep settings now fault => exact (swept_run settings now { e with fault }).mem_messageTables
  | serve service fault => exact service.mem_messageTables_run { e with fault }

theorem Event.spares (hsucceeds : event.Succeeds rotation e)
    (holdest : ∀ day, event.date? = some day → rotation.oldest day ≤ month)
    (h : ¬ event.Removes (TableName.ofMonth rotation.stem month) k e) :
    e.store.Spares (TableName.ofMonth rotation.stem month) k (event.apply e).store := by
  cases event with
  | rotate settings now fault =>
    obtain ⟨router, created, dropped, hupkept⟩ := Event.upkept rfl hsucceeds
    have hkept := hupkept.ofMonth_not_mem (holdest now.date rfl)
    intro hrow
    cases hget : e.store.tables.get? (TableName.ofMonth rotation.stem month) with
    | none =>
      rw [Store.rowAt, hget] at hrow
      cases hrow
    | some table => rwa [Store.rowAt_congr ((hupkept.kept _ table hget hkept).trans hget.symm)]
  | sweep settings now fault =>
    intro hrow
    obtain ⟨content, hcontent⟩ := Option.isSome_iff_exists.1 hrow
    have hfresh : expiredBefore now.seconds content = false := by
      rw [Bool.eq_false_iff]
      exact fun hexpired => h ⟨content, hcontent, hexpired⟩
    exact Option.isSome_iff_exists.2
      ⟨content, (swept_run settings now { e with fault }).rowAt_eq hcontent hfresh⟩
  | serve service fault => exact service.spares h { e with fault }

theorem covered_of_upkept (h : Upkept rotation.stem router today.month (rotation.oldest today) s s'
    created dropped) : Covered rotation today today s' := by
  intro month hlow hhigh _
  rw [Month.le_iff] at hlow
  rw [Month.le_iff, Month.index_next] at hhigh
  obtain hindex | hindex : month.index = today.month.index ∨
      month.index = today.month.next.index := by
    rw [Month.index_next]
    omega
  · rw [Month.index_inj.1 hindex]
    exact h.current
  · rw [Month.index_inj.1 hindex]
    exact h.next

/-- A month that has its table keeps it while it is retained. The others up to the next month begin
with the one that follows the months covered so far, which is not before the current month. -/
theorem Covered.rotate (hcovered : Covered rotation first last s) (hpaced : Paced last today)
    (h : Upkept rotation.stem router today.month (rotation.oldest today) s s' created dropped) :
    Covered rotation first today s' := by
  intro month hlow hhigh holdest
  by_cases hlast : month ≤ last.month.next
  · have hmem := hcovered month hlow hlast
      (Int.le_trans (rotation.oldest_mono hpaced.1) holdest)
    obtain ⟨rows, hrows⟩ := mem_messageTables.1 hmem
    exact mem_messageTables.2 ⟨rows, h.kept _ _ hrows (h.ofMonth_not_mem holdest)⟩
  · have hcurrent : today.month ≤ month := by
      have hpace := hpaced.2
      rw [Month.le_iff, Month.index_next] at hlast
      rw [Month.le_iff]
      omega
    exact covered_of_upkept h month hcurrent hhigh holdest

end Steps

section Runs

theorem runEvents_append (e : Engine) (before after : List Event) :
    runEvents e (before ++ after) = runEvents (runEvents e before) after :=
  Engine.after_append Event.apply e before after

theorem dates_concat (events : List Event) (event : Event) :
    dates (events ++ [event]) = dates events ++ event.date?.toList := by
  cases hdate : event.date? <;> simp [dates, hdate]

theorem month_le_of_mem {days : List Date} (hpaced : days.IsChain Paced)
    (hlast : days.getLast? = some last) (htoday : today ∈ days) : today.month ≤ last.month := by
  induction days generalizing today with
  | nil => cases htoday
  | cons day rest ih =>
    cases rest with
    | nil =>
      obtain rfl := List.mem_singleton.1 htoday
      obtain rfl := Option.some.inj hlast
      exact Int.le_refl _
    | cons day' rest =>
      obtain ⟨hpace, hrest⟩ := List.isChain_cons_cons.1 hpaced
      rw [List.getLast?_cons_cons] at hlast
      rcases List.mem_cons.1 htoday with rfl | htoday
      · exact Int.le_trans hpace.1 (ih hrest hlast List.mem_cons_self)
      · exact ih hrest hlast htoday

/-- By induction on the events, the last one first: a rotation extends the months covered before it,
and other events leave the tables as they are. -/
theorem Maintains.covered (h : Maintains rotation e events first last) :
    Covered rotation first last (runEvents e events).store := by
  induction events using List.reverseRecOn generalizing last with
  | nil => cases h.head
  | append_singleton events event ih =>
    obtain ⟨hsucceed, hpaced, hhead, hlast⟩ := h
    obtain ⟨hbefore, hevent, -⟩ := Engine.forall_mem_trace_append.1 hsucceed
    rw [runEvents_append]
    rw [dates_concat] at hpaced hhead hlast
    cases hdate : event.date? with
    | none =>
      rw [hdate, Option.toList_none, List.append_nil] at hpaced hhead hlast
      intro month hlow hhigh holdest
      exact (Event.mem_messageTables_apply hdate _).2
        (ih ⟨hbefore, hpaced, hhead, hlast⟩ month hlow hhigh holdest)
    | some day =>
      rw [hdate, Option.toList_some] at hpaced hhead hlast
      rw [List.getLast?_concat] at hlast
      obtain rfl := Option.some.inj hlast
      obtain ⟨router, created, dropped, hupkept⟩ := Event.upkept hdate hevent
      obtain ⟨hchain, -, hpace⟩ := List.isChain_append.1 hpaced
      rw [List.head?_append] at hhead
      cases hprevious : (dates events).getLast? with
      | none =>
        rw [List.getLast?_eq_none_iff.1 hprevious] at hhead
        obtain rfl := Option.some.inj hhead
        exact covered_of_upkept hupkept
      | some previous =>
        have hne : (dates events).head? ≠ none := fun hnone => by
          rw [List.head?_eq_none_iff.1 hnone] at hprevious
          cases hprevious
        obtain ⟨day', hday'⟩ := Option.ne_none_iff_exists'.1 hne
        rw [hday', Option.some_or] at hhead
        exact (ih ⟨hbefore, hchain, hday'.trans hhead, hprevious⟩).rotate
          (hpace previous hprevious day rfl) hupkept

theorem Maintains.onlyRemoves (h : Maintains rotation e events first last)
    (holdest : rotation.oldest last ≤ month) :
    OnlyRemoves (TableName.ofMonth rotation.stem month) e events := by
  rintro before event after rfl k hremoves
  obtain ⟨-, hsucceeds, -⟩ := Engine.forall_mem_trace_append.1 h.succeed
  rw [runEvents_append]
  refine Event.spares hsucceeds (fun day hday => ?_) hremoves
  have hmem : day ∈ dates (before ++ event :: after) :=
    List.mem_filterMap.2 ⟨event, by simp, hday⟩
  exact Int.le_trans (rotation.oldest_mono (month_le_of_mem h.paced h.getLast hmem)) holdest

/-- As long as rotations are no more than two months apart, every month from that of the first
rotation to the one after the last has its table while it is retained. Rows of the table go only by
deletes and sweeps, and no lookup on the day of the last rotation directs a subscriber of the month
to a table that is missing. -/
theorem retained_months_have_tables (h : Maintains rotation e events first last)
    (hlow : first.month ≤ month) (hhigh : month ≤ last.month.next)
    (holdest : rotation.oldest last ≤ month) :
    TableName.ofMonth rotation.stem month ∈ (runEvents e events).store.messageTables ∧
    OnlyRemoves (TableName.ofMonth rotation.stem month) e events ∧
    ∀ (r : Router) (m : Moment) (u : SubscriberId) (connectedAt : UInt64) (fault : Option Fault)
      (row : RouterContent) (outcome : Router.Outcome) (store : Store),
      Router.Holds r u (runEvents e events).store (some row) →
      row.month = some (TableName.ofMonth rotation.stem month) →
      (r.lookup m u connectedAt rotation last).Gives { runEvents e events with fault } outcome
        store →
      outcome.messageTable ∈ store.messageTables := by
  have hcovered := h.covered
  have hmonth := hcovered month hlow hhigh holdest
  refine ⟨hmonth, h.onlyRemoves holdest,
    fun r m u connectedAt fault row outcome store hrow hown hgives => ?_⟩
  have hcurrent : rotation.currentTable last ∈ (runEvents e events).store.messageTables := by
    refine hcovered last.month ?_ ?_ (rotation.oldest_le last)
    · exact month_le_of_mem h.paced h.getLast (List.mem_of_mem_head? h.head)
    · rw [Month.le_iff, Month.index_next]
      omega
  have htable : outcome.messageTable ∈ (runEvents e events).store.messageTables := by
    rcases Router.messageTable_of_lookup (e := { runEvents e events with fault }) hrow hgives with
      htable | htable
    · rwa [htable]
    · rwa [← Option.some.inj (hown.symm.trans htable)]
  obtain ⟨e', hrun, rfl⟩ := hgives
  have hkeeps : outcome.messageTable ∈ (Action.run (r.lookup m u connectedAt rotation last)
      { runEvents e events with fault }).2.store.messageTables ↔
        outcome.messageTable ∈ (runEvents e events).store.messageTables :=
    (Service.lookup r m u connectedAt rotation last).mem_messageTables_run _
  rw [hrun] at hkeeps
  exact hkeeps.2 htable

def march : Instant := ⟨1710500000000⟩

def januaryRecord : RouterRecord :=
  { RouterRecord.fresh Admin.january ⟨⟨1⟩⟩ with month := some "message_2024_01" }

/-- A subscriber comes in January, and no rotation runs in February. -/
def winterEvents : List Event :=
  [.rotate {} Admin.january none,
    .serve (.registerRecord Router.routers januaryRecord) none,
    .serve (.store Mailbox.januaryTable Admin.january Mailbox.queuedNotification) none,
    .sweep {} Admin.january none,
    .rotate {} march none]

instance : DecidableRel Paced := fun _ _ => inferInstanceAs (Decidable (_ ∧ _))

theorem maintains_winterEvents :
    Maintains Router.quarter {} winterEvents Admin.january.date march.date := by
  have hsettings : ({} : Settings).rotation = .ok Router.quarter := rfl
  constructor
  case succeed =>
    simp only [Succeed, winterEvents, Engine.trace, List.forall_mem_cons]
    exact ⟨⟨hsettings, Admin.exists_report (by decide +kernel)⟩, trivial, trivial, trivial,
      ⟨hsettings, Admin.exists_report (by decide +kernel)⟩, List.forall_mem_nil _⟩
  case paced => decide +kernel
  case head => rfl
  case getLast => rfl

def marchLookup : Except StoreError Router.Outcome × Engine :=
  Action.run (Router.routers.lookup ⟨march, 0⟩ ⟨⟨1⟩⟩ march.millis Router.quarter march.date)
    { runEvents {} winterEvents with fault := none }

theorem retained_months_have_tables_winter :
    Maintains Router.quarter {} winterEvents Admin.january.date march.date ∧
    "message_2024_02" ∈ (runEvents {} winterEvents).store.messageTables ∧
    OnlyRemoves "message_2024_01" {} winterEvents ∧
    ∃ outcome e', marchLookup = (.ok outcome, e') ∧ outcome.messageTable = "message_2024_01" ∧
      outcome.messageTable ∈ e'.store.messageTables := by
  have hjanuary : TableName.ofMonth Router.quarter.stem Admin.january.date.month =
      "message_2024_01" := by decide +kernel
  have hfebruary : TableName.ofMonth Router.quarter.stem Admin.january.date.month.next =
      "message_2024_02" := by decide +kernel
  have hrow : Router.Holds Router.routers ⟨⟨1⟩⟩ (runEvents {} winterEvents).store
      (some (Router.rowOf januaryRecord)) := by
    unfold Router.Holds
    decide +kernel
  obtain ⟨outcome, hresult, htable⟩ : ∃ outcome, marchLookup.1 = .ok outcome ∧
      outcome.messageTable = "message_2024_01" := map_eq_ok_iff.1 (by decide +kernel)
  have hrun : marchLookup = (.ok outcome, marchLookup.2) := Prod.ext hresult rfl
  have hself : Admin.january.date.month ≤ Admin.january.date.month := Int.le_refl _
  have hnext : Admin.january.date.month ≤ Admin.january.date.month.next := by decide +kernel
  obtain ⟨-, honly, hlookup⟩ := retained_months_have_tables maintains_winterEvents hself
    (by decide +kernel) (by decide +kernel)
  obtain ⟨hsecond, -⟩ := retained_months_have_tables maintains_winterEvents hnext
    (by decide +kernel) (by decide +kernel)
  rw [hjanuary] at honly hlookup
  rw [hfebruary] at hsecond
  exact ⟨maintains_winterEvents, hsecond, honly, outcome, _, hrun, htable,
    hlookup _ _ _ _ none _ outcome _ hrow rfl ⟨_, hrun, rfl⟩⟩

end Runs

end PushQueue.Upkeep
