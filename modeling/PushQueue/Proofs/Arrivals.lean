import Mathlib.Data.List.Chain
import PushQueue.Proofs.LastConnect
import PushQueue.Proofs.Router

/-!
A subscriber that comes back. A lookup that succeeds leaves the subscriber settled for the month: it
has no row, or one in a retained month that has been refreshed in this one. A settled subscriber is
looked up without a write, so that of all lookups in a month only the first may change the store.
-/

namespace PushQueue

namespace Rotation

variable {rotation : Rotation} {day today : Date}

theorem retains_congr (h : day.month = today.month) (name : String) :
    rotation.retains day name = rotation.retains today name := by
  have holdest : rotation.oldest day = rotation.oldest today := by
    rw [← Month.index_inj, index_oldest, index_oldest, h]
  rw [Bool.eq_iff_iff, retains_iff, retains_iff, holdest, h]

end Rotation

namespace Router

variable {r : Router} {m : Moment} {u : SubscriberId} {connectedAt : UInt64} {rotation : Rotation}
  {day today : Date} {e : Engine} {outcome : Outcome} {s store : Store}

section Lookups

def refreshed (r : Router) (m : Moment) (today : Date) (row : RouterContent) : Option UInt64 :=
  if LastConnect.inMonth row.lastConnect today.month then row.lastConnect else some (r.stamp m)

/-- What a lookup that succeeds makes of the rows, and what it answers. -/
inductive Resolves (r : Router) (m : Moment) (u : SubscriberId) (connectedAt : UInt64)
    (rotation : Rotation) (today : Date) (rows : RouterRows) : Outcome → RouterRows → Prop
  | absent : rows.get? (r.handle.partition u) = none →
    Resolves r m u connectedAt rotation today rows (unknown rotation today) rows
  | dropped {row : RouterContent} : rows.get? (r.handle.partition u) = some row →
    isRetained rotation today row = false →
    Resolves r m u connectedAt rotation today rows (unknown rotation today)
      (rows.erase (r.handle.partition u))
  | kept {row : RouterContent} {user : RouterRecord} {name : String} :
    rows.get? (r.handle.partition u) = some row → row.month = some name →
    rotation.retains today name = true →
    Resolves r m u connectedAt rotation today rows
      (known rotation today user name (refreshed r m today row) connectedAt)
      (rows.insert (r.handle.partition u) { row with lastConnect := refreshed r m today row })

variable {rows rows' : RouterRows}

theorem refreshed_of_gives {row : RouterContent} {user : RouterRecord}
    {answer : Option UInt64 → Outcome} (hrows : e.store.routerRows r.handle.table = .ok rows)
    (hfound : rows.get? (r.handle.partition u) = some row)
    (hlast : user.lastConnect = row.lastConnect)
    (h : Action.Gives (if LastConnect.inMonth user.lastConnect today.month = true then do
        let lastConnect ← pure user.lastConnect
        pure (answer lastConnect)
      else do
        let _ ← Action.call
          (Store.setLastConnect r.handle.table (r.handle.partition u) (r.stamp m))
        let lastConnect ← pure (some (r.stamp m))
        pure (answer lastConnect)) e outcome store) :
    outcome = answer (refreshed r m today row) ∧
      store = e.store.setTable r.handle.table (.routers (rows.insert (r.handle.partition u)
        { row with lastConnect := refreshed r m today row })) := by
  rw [refreshed, ← hlast]
  split at h
  next hrecent =>
    obtain ⟨lastConnect, hpure, rfl⟩ := h.of_bind_pure
    obtain ⟨rfl, rfl⟩ := hpure.of_pure
    have hunchanged : rows.insert (r.handle.partition u)
        { row with lastConnect := user.lastConnect } = rows := by
      apply SortedMap.insert_of_get?
      rw [hfound, hlast]
    rw [if_pos hrecent, hunchanged]
    exact ⟨rfl, (Store.setTable_of_table (Store.routerRows_eq_ok_iff.1 hrows)).symm⟩
  next hstale =>
    obtain ⟨written, e₁, hset, hafter⟩ := h.of_bind
    obtain ⟨lastConnect, hpure, rfl⟩ := hafter.of_bind_pure
    obtain ⟨rfl, rfl⟩ := hpure.of_pure
    have hcall := hset.of_call
    rw [Store.setLastConnect, Store.changeRouter_eq hrows hfound rfl] at hcall
    obtain ⟨-, hstore⟩ := Prod.mk.inj (Except.ok.inj hcall)
    rw [if_neg hstale]
    exact ⟨rfl, hstore.symm⟩

theorem resolves_of_gives
    (h : (r.lookup m u connectedAt rotation today).Gives e outcome store) :
    ∃ rows rows', e.store.routerRows r.handle.table = .ok rows ∧
      store = e.store.setTable r.handle.table (.routers rows') ∧
      Resolves r m u connectedAt rotation today rows outcome rows' := by
  obtain ⟨found, e₁, hget, hafter⟩ := h.of_bind
  obtain ⟨hstore, row, hrow, hreads⟩ := get_of_gives hget
  obtain ⟨rows, hrows, hfound⟩ := Store.getRouter_eq_ok_iff.1 hrow
  rw [← hstore] at hrows ⊢
  refine ⟨rows, ?_⟩
  cases hreads with
  | none =>
    obtain ⟨rfl, rfl⟩ := hafter.of_pure
    have htable := Store.routerRows_eq_ok_iff.1 hrows
    exact ⟨rows, hrows, (Store.setTable_of_table htable).symm, .absent hfound⟩
  | @some row user hread =>
    obtain ⟨hmonth, hlast⟩ := readRow_eq_ok hread
    simp only at hafter
    split at hafter
    next hnone =>
      have hret : isRetained rotation today row = false := by
        rw [isRetained, ← hmonth, ← Option.isSome_filter, hnone]
        rfl
      obtain ⟨dropped, hdrop, rfl⟩ := hafter.of_bind_pure
      have hcall := hdrop.of_tracked.of_call
      rw [Store.deletePartition_eq hrows] at hcall
      obtain ⟨-, rfl⟩ := Prod.mk.inj (Except.ok.inj hcall)
      exact ⟨_, hrows, rfl, .dropped hfound hret⟩
    next name hname =>
      obtain ⟨hown, hretains⟩ := Option.filter_eq_some_iff.1 hname
      rw [hmonth] at hown
      obtain ⟨rfl, rfl⟩ := refreshed_of_gives hrows hfound hlast hafter
      exact ⟨_, hrows, rfl, .kept hfound hown hretains⟩

theorem Resolves.row_of_user {user : RouterRecord}
    (h : Resolves r m u connectedAt rotation today rows outcome rows')
    (huser : outcome.user = some user) :
    ∃ row, rows.get? (r.handle.partition u) = some row ∧
      rows' = rows.insert (r.handle.partition u) { row with lastConnect := user.lastConnect } ∧
      row.month = some outcome.messageTable ∧
      rotation.retains today outcome.messageTable = true ∧
      (outcome.rotate = true ↔ outcome.messageTable ≠ rotation.currentTable today) := by
  cases h with
  | absent hfound => cases huser
  | dropped hfound hret => cases huser
  | kept hfound hmonth hretains =>
    cases huser
    exact ⟨_, hfound, rfl, hmonth, hretains, decide_eq_true_iff⟩

theorem Resolves.get?_eq_none (h : Resolves r m u connectedAt rotation today rows outcome rows')
    (hnone : outcome.user = none) : rows'.get? (r.handle.partition u) = none := by
  cases h with
  | absent hfound => exact hfound
  | dropped hfound hret => rw [SortedMap.get?_erase, if_pos rfl]
  | kept hfound hmonth hretains => cases hnone

end Lookups

section Settling

/-- Nothing is left to do for the subscriber on a day like this one: it has no row, or one in a
retained month that has been refreshed. -/
def Settled (r : Router) (u : SubscriberId) (rotation : Rotation) (today : Date) (s : Store) :
    Prop :=
  ∃ row, Holds r u s row ∧ ∀ stored ∈ row,
    isRetained rotation today stored = true ∧
      LastConnect.inMonth stored.lastConnect today.month = true

theorem Settled.of_month_eq (h : Settled r u rotation today s) (hday : day.month = today.month) :
    Settled r u rotation day s := by
  obtain ⟨row, hrow, hstored⟩ := h
  refine ⟨row, hrow, fun stored hmem => ?_⟩
  have hretains : rotation.retains day = rotation.retains today :=
    funext (Rotation.retains_congr hday)
  rw [isRetained, hretains, hday]
  exact hstored stored hmem

/-- What a lookup writes passes the test that reads it. -/
theorem inMonth_refreshed (hnow : m.now.date.month = today.month)
    (hyear : today.month.InFourDigits) (row : RouterContent) :
    LastConnect.inMonth (refreshed r m today row) today.month = true := by
  unfold refreshed
  split
  next hrecent => exact hrecent
  next => exact (LastConnect.inMonth_stamp_iff (hnow ▸ hyear) hyear _ _).2 hnow

theorem settled_of_lookup (h : (r.lookup m u connectedAt rotation today).Gives e outcome store)
    (hnow : m.now.date.month = today.month) (hyear : today.month.InFourDigits) :
    Settled r u rotation today store := by
  obtain ⟨rows, rows', hrows, rfl, hresolves⟩ := resolves_of_gives h
  have hgone : Holds r u (e.store.setTable r.handle.table (.routers rows')) none →
      Settled r u rotation today (e.store.setTable r.handle.table (.routers rows')) :=
    fun hnone => ⟨none, hnone, nofun⟩
  cases hresolves with
  | absent hfound => exact hgone (.setTable hrows hfound)
  | dropped hfound hret => exact hgone (.setTable hrows (by rw [SortedMap.get?_erase, if_pos rfl]))
  | @kept row user name hfound hmonth hretains =>
    refine ⟨some { row with lastConnect := refreshed r m today row },
      .setTable hrows (by rw [SortedMap.get?_insert, if_pos rfl]), ?_⟩
    rintro stored ⟨⟩
    refine ⟨?_, inMonth_refreshed hnow hyear row⟩
    rw [isRetained, hmonth]
    exact hretains

theorem Settled.store_eq (hs : Settled r u rotation today e.store)
    (h : (r.lookup m u connectedAt rotation today).Gives e outcome store) : store = e.store := by
  obtain ⟨rows, rows', hrows, rfl, hresolves⟩ := resolves_of_gives h
  obtain ⟨row, hrow, hstored⟩ := hs
  have hget : rows.get? (r.handle.partition u) = row := by
    obtain ⟨rows₀, hrows₀, hget⟩ := Store.getRouter_eq_ok_iff.1 hrow
    obtain rfl : rows = rows₀ := Except.ok.inj (hrows.symm.trans hrows₀)
    exact hget
  have hunchanged : rows' = rows := by
    cases hresolves with
    | absent => rfl
    | dropped hfound hret =>
      obtain ⟨hretained, -⟩ := hstored _ (hget.symm.trans hfound)
      rw [hret] at hretained
      cases hretained
    | kept hfound hmonth hretains =>
      obtain ⟨-, hrecent⟩ := hstored _ (hget.symm.trans hfound)
      apply SortedMap.insert_of_get?
      rw [refreshed, if_pos hrecent]
      exact hfound
  rw [hunchanged]
  exact Store.setTable_of_table (Store.routerRows_eq_ok_iff.1 hrows)

end Settling

section Arrivals

/-- A lookup of the subscriber: when it is made, what it answers, and the stores around it. -/
structure Arrival where
  moment : Moment
  connectedAt : UInt64
  before : Store
  outcome : Outcome
  after : Store

def Arrival.date (a : Arrival) : Date := a.moment.now.date

def Arrival.Succeeds (r : Router) (u : SubscriberId) (rotation : Rotation) (a : Arrival) : Prop :=
  ∃ e : Engine, e.store = a.before ∧
    (r.lookup a.moment u a.connectedAt rotation a.date).Gives e a.outcome a.after

/-- What a lookup is to answer and to leave: a subscriber with a row keeps it but for the
last-connect value, which is the one it is told, and is sent to its own month; one that is unknown
has no row. -/
structure Arrival.Answered (r : Router) (u : SubscriberId) (rotation : Rotation) (a : Arrival) :
    Prop where
  known : ∀ user, a.outcome.user = some user → ∃ rows row,
    a.before.routerRows r.handle.table = .ok rows ∧
      rows.get? (r.handle.partition u) = some row ∧
      a.after = a.before.setTable r.handle.table (.routers
        (rows.insert (r.handle.partition u) { row with lastConnect := user.lastConnect })) ∧
      row.month = some a.outcome.messageTable ∧
      rotation.retains a.date a.outcome.messageTable = true ∧
      (a.outcome.rotate = true ↔ a.outcome.messageTable ≠ rotation.currentTable a.date)
  unknown : a.outcome.user = none → Holds r u a.after none

theorem Arrival.Succeeds.answered {a : Arrival} (h : a.Succeeds r u rotation) :
    a.Answered r u rotation := by
  obtain ⟨e, hbefore, hgives⟩ := h
  obtain ⟨rows, rows', hrows, hafter, hresolves⟩ := resolves_of_gives hgives
  constructor
  case known =>
    intro user huser
    obtain ⟨row, hfound, rfl, hrow⟩ := hresolves.row_of_user huser
    rw [hbefore] at hrows hafter
    exact ⟨rows, row, hrows, hfound, hafter, hrow⟩
  case unknown =>
    intro hnone
    rw [hafter]
    exact .setTable hrows (hresolves.get?_eq_none hnone)

theorem after_eq_of_settled {arrivals : List Arrival}
    (hsucceed : ∀ a ∈ arrivals, a.Succeeds r u rotation)
    (hmonth : ∀ a ∈ arrivals, a.date.month = today.month)
    (hchain : arrivals.IsChain fun a b => a.after = b.before)
    (hs : ∀ a ∈ arrivals.head?, Settled r u rotation today a.before) :
    ∀ a ∈ arrivals, a.after = a.before := by
  induction arrivals with
  | nil => exact fun a ha => absurd ha List.not_mem_nil
  | cons a rest ih =>
    obtain ⟨⟨e, hbefore, hgives⟩, hrest⟩ := List.forall_mem_cons.1 hsucceed
    obtain ⟨hday, hdays⟩ := List.forall_mem_cons.1 hmonth
    obtain ⟨hnext, hlinks⟩ := List.isChain_cons.1 hchain
    have hsettled := hs a rfl
    have hsame : a.after = a.before := by
      rw [← hbefore] at hsettled ⊢
      exact (hsettled.of_month_eq hday).store_eq hgives
    refine List.forall_mem_cons.2 ⟨hsame, ih hrest hdays hlinks fun b hb => ?_⟩
    rw [← hnext b hb, hsame]
    exact hsettled

/-- Of lookups that succeed in one month, with nothing written in between, only the first may change
the store; and each answers what the row says, or that there is none. -/
theorem refreshed_once_a_month {month : Month} {arrivals : List Arrival}
    (hyear : month.InFourDigits)
    (hsucceed : ∀ a ∈ arrivals, a.Succeeds r u rotation)
    (hchain : arrivals.IsChain fun a b => a.after = b.before)
    (hmonth : ∀ a ∈ arrivals, a.date.month = month) :
    (∀ a ∈ arrivals.tail, a.after = a.before) ∧ ∀ a ∈ arrivals, a.Answered r u rotation := by
  refine ⟨?_, fun a ha => (hsucceed a ha).answered⟩
  cases arrivals with
  | nil => exact fun a ha => absurd ha List.not_mem_nil
  | cons first rest =>
    obtain ⟨⟨e, hbefore, hgives⟩, hrest⟩ := List.forall_mem_cons.1 hsucceed
    obtain ⟨hday, hdays⟩ := List.forall_mem_cons.1 hmonth
    obtain ⟨hnext, hlinks⟩ := List.isChain_cons.1 hchain
    -- The first lookup settles the subscriber, whatever it found.
    have hsettled : Settled r u rotation first.date first.after :=
      settled_of_lookup hgives rfl (hday ▸ hyear)
    refine after_eq_of_settled hrest (fun a ha => ?_) hlinks fun a ha => hnext a ha ▸ hsettled
    rw [hday, hdays a ha]

theorem exists_arrival {row : RouterContent} {user : RouterRecord} (hfault : e.fault = none)
    (hrow : Holds r u e.store (some row)) (hread : readRow u row = .ok user) (rotation : Rotation)
    (m : Moment) (connectedAt : UInt64) :
    ∃ a : Arrival, a.moment = m ∧ a.before = e.store ∧ a.Succeeds r u rotation ∧
      (isRetained rotation a.date row = true →
        Keeps r u user row connectedAt a.outcome a.after) := by
  obtain ⟨stats, hget⟩ := run_get hfault hrow hread
  rcases @lookup_cases r m u connectedAt rotation m.now.date _ _ _ _ hget rfl hread hrow with
    ⟨hblocked, -⟩ | ⟨outcome, store, hgives, hkeeps, -⟩
  · rw [Engine.isBlocked, hfault] at hblocked
    cases hblocked
  · let a : Arrival := ⟨m, connectedAt, e.store, outcome, store⟩
    have hsucceeds : a.Succeeds r u rotation := ⟨e, rfl, hgives⟩
    exact ⟨a, rfl, rfl, hsucceeds, hkeeps⟩

def januaryMoments : Moment × Moment := (⟨⟨1705322096789⟩, 3⟩, ⟨⟨1706745599999⟩, 8⟩)

/-- A subscriber of December comes twice in January; the second lookup finds what the first wrote. -/
theorem refreshed_once_a_month_january :
    ∃ first second : Arrival,
      (first.moment, second.moment) = januaryMoments ∧
      first.before = (engineInMonth "message_2023_12").store ∧
      (midJanuary 2024).month.InFourDigits ∧
      (∀ a ∈ [first, second], a.Succeeds routers ⟨⟨1⟩⟩ quarter) ∧
      [first, second].IsChain (fun a b => a.after = b.before) ∧
      (∀ a ∈ [first, second], a.date.month = (midJanuary 2024).month) ∧
      second.outcome.user.isSome = true ∧ second.after = second.before := by
  have hrow : Holds routers ⟨⟨1⟩⟩ (engineInMonth "message_2023_12").store
      (some (rowInMonth "message_2023_12")) := by
    unfold Holds
    decide +kernel
  obtain ⟨first, hfirst, hbefore, hsucceeds, hkeeps⟩ :=
    exists_arrival rfl hrow rfl quarter januaryMoments.1 2
  have hdate : first.date.month = (midJanuary 2024).month := by
    rw [Arrival.date, hfirst]
    decide +kernel
  have hretained (day : Date) (hday : day.month = (midJanuary 2024).month) :
      isRetained quarter day (rowInMonth "message_2023_12") = true := by
    rw [isRetained, rowInMonth, Option.any_some, Rotation.retains_congr hday]
    decide +kernel
  obtain ⟨lastConnect, -, hkept⟩ := hkeeps (hretained _ hdate)
  let e : Engine := { engineInMonth "message_2023_12" with store := first.after }
  obtain ⟨second, hsecond, hbefore', hsucceeds', hkeeps'⟩ :=
    @exists_arrival routers ⟨⟨1⟩⟩ e _ _ rfl hkept rfl quarter januaryMoments.2 3
  have hdate' : second.date.month = (midJanuary 2024).month := by
    rw [Arrival.date, hsecond]
    decide +kernel
  obtain ⟨_, huser, -⟩ := hkeeps' (hretained _ hdate')
  have hyear : (midJanuary 2024).month.InFourDigits := by decide
  have hsucceed : ∀ a ∈ [first, second], a.Succeeds routers ⟨⟨1⟩⟩ quarter :=
    List.forall_mem_cons.2 ⟨hsucceeds, List.forall_mem_singleton.2 hsucceeds'⟩
  have hchain : [first, second].IsChain fun a b => a.after = b.before :=
    .cons_cons hbefore'.symm (.singleton _)
  have hmonth : ∀ a ∈ [first, second], a.date.month = (midJanuary 2024).month :=
    List.forall_mem_cons.2 ⟨hdate, List.forall_mem_singleton.2 hdate'⟩
  obtain ⟨hunchanged, -⟩ := refreshed_once_a_month hyear hsucceed hchain hmonth
  exact ⟨first, second, by rw [hfirst, hsecond], hbefore, hyear, hsucceed, hchain, hmonth,
    by rw [huser]; rfl, hunchanged second List.mem_cons_self⟩

end Arrivals

end Router

end PushQueue
