import Mathlib.Data.List.Basic
import PushQueue.Migration
import PushQueue.Proofs.Engine
import PushQueue.Proofs.Rotation
import PushQueue.Proofs.Store

/-!
Resolving a connecting subscriber. It is kept or dropped by the month of its record, and a lookup
that fails leaves its row as it was.
-/

namespace PushQueue.Router

variable {r : Router} {m : Moment} {u : SubscriberId} {connectedAt : UInt64} {rotation : Rotation}
  {today : Date} {e e₁ : Engine} {row : RouterContent} {user : RouterRecord}

section Steps

theorem readRow_eq_ok (h : readRow u row = .ok user) :
    user.month = row.month ∧ user.lastConnect = row.lastConnect := by
  obtain ⟨routerData, -, rfl⟩ := map_eq_ok_iff.1 h
  exact ⟨rfl, rfl⟩

def Holds (r : Router) (u : SubscriberId) (s : Store) (row : Option RouterContent) : Prop :=
  s.getRouter r.handle.table (r.handle.partition u) = .ok row

theorem Holds.setTable {rows rows' : RouterRows} {s : Store} {row : Option RouterContent}
    (hrows : s.routerRows r.handle.table = .ok rows)
    (hget : rows'.get? (r.handle.partition u) = row) :
    Holds r u (s.setTable r.handle.table (.routers rows')) row := by
  rw [Holds, Store.getRouter_setTable hrows, hget]

/-- The subscriber is answered and its row stays, with at most a new last-connect value. -/
def Keeps (r : Router) (u : SubscriberId) (user : RouterRecord) (row : RouterContent)
    (connectedAt : UInt64) (outcome : Outcome) (s : Store) : Prop :=
  ∃ lastConnect, outcome.user = some { user with lastConnect, connectedAt } ∧
    Holds r u s (some { row with lastConnect })

/-- The subscriber is answered as unknown, and its row is gone. -/
def Drops (r : Router) (u : SubscriberId) (outcome : Outcome) (s : Store) : Prop :=
  outcome.user = none ∧ Holds r u s none

def known (rotation : Rotation) (today : Date) (user : RouterRecord) (month : String)
    (lastConnect : Option UInt64) (connectedAt : UInt64) : Outcome where
  user := some { user with lastConnect, connectedAt }
  messageTable := month
  checkStorage := true
  rotate := month ≠ rotation.currentTable today
  resetId := user.needsReset

def isRetained (rotation : Rotation) (today : Date) (row : RouterContent) : Bool :=
  row.month.any (rotation.retains today)

theorem get_cases (hrow : Holds r u e.store (some row)) :
    (r.get u).Refuses e ∨
      ∃ user, readRow u row = .ok user ∧ (r.get u).Gives e (some user) e.store := by
  rcases Action.read_of_ok (fun s => s.getRouter r.handle.table (r.handle.partition u)) hrow with
    ⟨-, hrefuses⟩ | ⟨e₁, hrun, hstore⟩
  · exact .inl ((hrefuses.bind _).tracked _)
  · cases hread : readRow u row with
    | error error =>
      refine .inl (Action.Refuses.tracked (.after hrun hstore (.ofExcept_bind ?_)) _)
      rw [hread]
      nofun
    | ok user =>
      refine .inr ⟨user, rfl, Action.Gives.tracked (.after hrun (.ofExcept_bind hread ?_)) _⟩
      exact ⟨e₁, rfl, hstore⟩

theorem run_get (hfault : e.fault = none) (hrow : Holds r u e.store (some row))
    (hread : readRow u row = .ok user) :
    ∃ stats, Action.run (r.get u) e = (.ok (some user), { e with stats }) := by
  have hrow : e.store.getRouter r.handle.table (r.handle.partition u) = .ok (some row) := hrow
  apply Action.run_tracked
  simp only [Action.run_bind, Action.run_read hfault, hrow, hread, Action.run_ofExcept]
  rfl

/-- What is answered about a row. -/
inductive Reads (u : SubscriberId) : Option RouterContent → Option RouterRecord → Prop
  | none : Reads u none none
  | some {row : RouterContent} {user : RouterRecord} :
    readRow u row = .ok user → Reads u (some row) (some user)

theorem get_of_gives {found : Option RouterRecord} {store : Store}
    (h : (r.get u).Gives e found store) :
    store = e.store ∧ ∃ row, Holds r u e.store row ∧ Reads u row found := by
  obtain ⟨row, e₁, hread, hafter⟩ := h.of_tracked.of_bind
  obtain ⟨hrow, hstore⟩ := hread.of_read
  cases row with
  | none =>
    obtain ⟨rfl, rfl⟩ := hafter.of_pure
    exact ⟨hstore, .none, hrow, .none⟩
  | some row =>
    obtain ⟨user, huser, hpure⟩ := hafter.of_ofExcept_bind
    obtain ⟨rfl, rfl⟩ := hpure.of_pure
    exact ⟨hstore, .some row, hrow, .some huser⟩

theorem drop_cases (hrow : Holds r u e.store (some row)) :
    e.isBlocked = true ∧ (r.drop u).Refuses e ∨
      ∃ dropped store, (r.drop u).Gives e dropped store ∧ Holds r u store none := by
  obtain ⟨rows, hrows, -⟩ := Store.getRouter_eq_ok_iff.1 hrow
  rcases Action.call_of_ok (Store.deletePartition_eq hrows _) with ⟨hblocked, hrefuses⟩ | hgives
  · exact .inl ⟨hblocked, hrefuses.tracked _⟩
  · refine .inr ⟨_, _, hgives.tracked _, .setTable hrows ?_⟩
    rw [SortedMap.get?_erase, if_pos rfl]

theorem setLastConnect_cases (hrow : Holds r u e.store (some row)) (stamp : UInt64) :
    e.isBlocked = true ∧ (Action.call (Store.setLastConnect r.handle.table
        (r.handle.partition u) stamp)).Refuses e ∨
      ∃ store, (Action.call (Store.setLastConnect r.handle.table (r.handle.partition u)
          stamp)).Gives e true store ∧
        Holds r u store (some { row with lastConnect := some stamp }) := by
  obtain ⟨rows, hrows, hget⟩ := Store.getRouter_eq_ok_iff.1 hrow
  have hset : Store.setLastConnect r.handle.table (r.handle.partition u) stamp e.store =
      .ok (true, e.store.setTable r.handle.table (.routers
        (rows.insert (r.handle.partition u) { row with lastConnect := some stamp }))) :=
    Store.changeRouter_eq hrows hget rfl _
  rcases Action.call_of_ok hset with hrefuses | hgives
  · exact .inl hrefuses
  · refine .inr ⟨_, hgives, .setTable hrows ?_⟩
    rw [SortedMap.get?_insert, if_pos rfl]

end Steps

section Lookups

/-- After the record is read, one more call at most decides: the subscriber is kept if its month is
retained, and dropped if not. -/
theorem lookup_cases (hget : Action.run (r.get u) e = (.ok (some user), e₁))
    (hstore : e₁.store = e.store) (hread : readRow u row = .ok user)
    (hrow : Holds r u e.store (some row)) :
    e₁.isBlocked = true ∧ (r.lookup m u connectedAt rotation today).Refuses e ∨
      ∃ outcome store, (r.lookup m u connectedAt rotation today).Gives e outcome store ∧
        (isRetained rotation today row = true → Keeps r u user row connectedAt outcome store) ∧
        (isRetained rotation today row = false → Drops r u outcome store) := by
  obtain ⟨hmonth, hlast⟩ := readRow_eq_ok hread
  rw [← hstore] at hrow
  unfold lookup
  -- The split follows the calls that are left: one to drop, none, or one to refresh.
  cases hfound : user.month.filter (rotation.retains today) with
  | none =>
    have hret : isRetained rotation today row = false := by
      rw [isRetained, ← hmonth, ← Option.isSome_filter, hfound]
      rfl
    rcases drop_cases hrow with ⟨hblocked, hrefuses⟩ | ⟨dropped, store, hgives, hgone⟩
    · refine .inl ⟨hblocked, .after hget hstore ?_⟩
      simp only [hfound]
      exact hrefuses.bind _
    · refine .inr ⟨unknown rotation today, store, .after hget ?_, ?_, ?_⟩
      · simp only [hfound]
        exact hgives.bind_pure _
      · simp [hret]
      · exact fun _ => ⟨rfl, hgone⟩
  | some month =>
    have hret : isRetained rotation today row = true := by
      rw [isRetained, ← hmonth, ← Option.isSome_filter, hfound]
      rfl
    cases hrecent : LastConnect.inMonth user.lastConnect today.month with
    | true =>
      refine .inr ⟨known rotation today user month user.lastConnect connectedAt, e₁.store,
        .after hget ?_, ?_, ?_⟩
      · simp only [hfound, hrecent, ↓reduceIte]
        exact ⟨e₁, rfl, rfl⟩
      · exact fun _ => ⟨user.lastConnect, rfl, hlast ▸ hrow⟩
      · simp [hret]
    | false =>
      rcases setLastConnect_cases hrow (r.stamp m) with ⟨hblocked, hrefuses⟩ | ⟨store, hgives, hset⟩
      · refine .inl ⟨hblocked, .after hget hstore ?_⟩
        simp only [hfound, hrecent, Bool.false_eq_true, ↓reduceIte]
        exact hrefuses.bind _
      · refine .inr ⟨known rotation today user month (some (r.stamp m)) connectedAt, store,
          .after hget ?_, ?_, ?_⟩
        · simp only [hfound, hrecent, Bool.false_eq_true, ↓reduceIte]
          exact hgives.bind_pure _
        · exact fun _ => ⟨_, rfl, hset⟩
        · simp [hret]

theorem messageTable_of_lookup {outcome : Outcome} {store : Store}
    (hrow : Holds r u e.store (some row))
    (h : (r.lookup m u connectedAt rotation today).Gives e outcome store) :
    outcome.messageTable = rotation.currentTable today ∨
      row.month = some outcome.messageTable := by
  obtain ⟨found, e₁, hget, hafter⟩ := h.of_bind
  rcases get_cases hrow with hrefuses | ⟨user, hread, hgives⟩
  · exact absurd hget hrefuses.not_gives
  · obtain ⟨rfl, -⟩ := hget.unique hgives
    obtain ⟨hmonth, -⟩ := readRow_eq_ok hread
    simp only at hafter
    split at hafter
    next =>
      obtain ⟨_, -, rfl⟩ := hafter.of_bind_pure
      exact .inl rfl
    next month hfound =>
      obtain ⟨hown, -⟩ := Option.filter_eq_some_iff.1 hfound
      rw [← hmonth]
      split at hafter
      · obtain ⟨_, -, rfl⟩ := hafter.of_bind_pure
        exact .inr hown
      · obtain ⟨_, _, -, hafter⟩ := hafter.of_bind
        obtain ⟨_, -, rfl⟩ := hafter.of_bind_pure
        exact .inr hown

theorem isRetired_iff {name : String} {month : Month}
    (h : TableName.month rotation.stem name = .ok month) :
    Migration.isRetired rotation today name = true ↔ month < rotation.oldest today := by
  rw [Migration.isRetired, h, decide_eq_true_iff]

/-- For a month under its own name, the lookup keeps what is neither retired nor to come. -/
theorem isRetained_iff {name : String} {month : Month} (hname : row.month = some name)
    (hmonth : TableName.month rotation.stem name = .ok month)
    (hown : name = TableName.ofMonth rotation.stem month) :
    isRetained rotation today row = true ↔
      Migration.isRetired rotation today name = false ∧ month ≤ today.month := by
  rw [Bool.eq_false_iff, ne_eq, isRetired_iff hmonth, Month.not_lt, isRetained, hname,
    Option.any_some, hown, Rotation.retains_ofMonth_iff]

theorem isRetained_eq_false_iff {name : String} {month : Month} (hname : row.month = some name)
    (hmonth : TableName.month rotation.stem name = .ok month)
    (hown : name = TableName.ofMonth rotation.stem month) :
    isRetained rotation today row = false ↔
      Migration.isRetired rotation today name = true ∨ today.month < month := by
  rw [Bool.eq_false_iff, ne_eq, isRetained_iff hname hmonth hown, Decidable.not_and_iff_not_or_not,
    Bool.not_eq_false, Month.not_le]

theorem isRetained_eq_false_of_gone (hrow : Holds r u e.store (some row))
    (hgone : Holds r u (Action.run (r.lookup m u connectedAt rotation today) e).2.store none) :
    isRetained rotation today row = false := by
  have hrefused (h : (r.lookup m u connectedAt rotation today).Refuses e) : False := by
    obtain ⟨error, e', hrun, hstore⟩ := h
    rw [hrun, hstore, Holds, hrow] at hgone
    cases hgone
  -- The row is read, kept or dropped by one call each; only the last of them makes a change, so
  -- wherever the failure hits, the row is as it was.
  rcases get_cases hrow with hget | ⟨user, hread, e₁, hget, hstore⟩
  · exact (hrefused (hget.bind _)).elim
  · rcases lookup_cases hget hstore hread hrow with ⟨-, h⟩ | ⟨outcome, store, hgives, hkeeps, -⟩
    · exact (hrefused h).elim
    · rw [Bool.eq_false_iff]
      intro hretained
      obtain ⟨e', hrun, rfl⟩ := hgives
      obtain ⟨lastConnect, -, hkept⟩ := hkeeps hretained
      rw [hrun, Holds, hkept] at hgone
      cases hgone

/-- A record that can be read is resolved by its month. Where that is a month of the rotation under
its own name, the subscriber is kept if its table is neither retired nor of a month to come, and
dropped otherwise; and no call takes away the row of a subscriber that is to be kept. -/
theorem lookup_drops_retired_or_future (hrow : Holds r u e.store (some row)) :
    (∀ user, readRow u row = .ok user → e.fault = none →
      ∃ outcome store, (r.lookup m u connectedAt rotation today).Gives e outcome store ∧
        ∀ name month, row.month = some name → TableName.month rotation.stem name = .ok month →
          name = TableName.ofMonth rotation.stem month →
          (Migration.isRetired rotation today name = false ∧ month ≤ today.month →
            Keeps r u user row connectedAt outcome store) ∧
          (Migration.isRetired rotation today name = true ∨ today.month < month →
            Drops r u outcome store)) ∧
    (Holds r u (Action.run (r.lookup m u connectedAt rotation today) e).2.store none →
      ∀ name month, row.month = some name → TableName.month rotation.stem name = .ok month →
        name = TableName.ofMonth rotation.stem month →
        Migration.isRetired rotation today name = true ∨ today.month < month) := by
  constructor
  · intro user hread hfault
    obtain ⟨stats, hget⟩ := run_get hfault hrow hread
    rcases lookup_cases hget rfl hread hrow with
      ⟨hblocked, -⟩ | ⟨outcome, store, hgives, hkeeps, hdrops⟩
    · simp [Engine.isBlocked, hfault] at hblocked
    · refine ⟨outcome, store, hgives, fun name month hname hmonth hown => ?_⟩
      refine ⟨fun hin => ?_, fun hout => ?_⟩
      · exact hkeeps ((isRetained_iff hname hmonth hown).2 hin)
      · exact hdrops ((isRetained_eq_false_iff hname hmonth hown).2 hout)
  · intro hgone name month hname hmonth hown
    exact (isRetained_eq_false_iff hname hmonth hown).1 (isRetained_eq_false_of_gone hrow hgone)

def routers : Router where
  handle :=
    { table := "router", valid_table := by decide, maxTtl_le := UInt64.le_refl maxRetention }
  buckets := LastConnect.defaultBuckets

def rowInMonth (name : String) : RouterContent where
  connectedAt := 1
  routerType := RouterRecord.defaultRouterType
  recordVersion := some RouterRecord.currentVersion
  month := some name

def engineInMonth (name : String) : Engine where
  store := ⟨SortedMap.empty.insert routers.handle.table
    (.routers (SortedMap.empty.insert (routers.handle.partition ⟨⟨1⟩⟩) (rowInMonth name)))⟩

def quarter : Rotation where
  stem := "message"
  retained := 3
  valid_stem := by decide
  retained_pos := by decide

theorem january_in_year : 1 ≤ 1 ∧ 1 ≤ 12 := by decide

def midJanuary (year : Int) : Date :=
  ⟨⟨year, 1, january_in_year⟩, 15, by decide, Nat.le_trans (by decide) (Month.le_days _)⟩

def lookupIn (year : Int) (name : String) : Except StoreError Outcome × Engine :=
  Action.run (routers.lookup ⟨⟨5⟩, 0⟩ ⟨⟨1⟩⟩ 2 quarter (midJanuary year)) (engineInMonth name)

theorem lookup_drops_retired_or_future_december :
    Holds routers ⟨⟨1⟩⟩ (engineInMonth "message_2023_12").store
      (some (rowInMonth "message_2023_12")) ∧
    ∃ user outcome e', readRow ⟨⟨1⟩⟩ (rowInMonth "message_2023_12") = .ok user ∧
      lookupIn 2024 "message_2023_12" = (.ok outcome, e') ∧
      Keeps routers ⟨⟨1⟩⟩ user (rowInMonth "message_2023_12") 2 outcome e'.store := by
  have hrow : Holds routers ⟨⟨1⟩⟩ (engineInMonth "message_2023_12").store
      (some (rowInMonth "message_2023_12")) := by
    unfold Holds
    decide +kernel
  obtain ⟨outcome, store, ⟨e', hrun, rfl⟩, hresolved⟩ :=
    (@lookup_drops_retired_or_future routers ⟨⟨5⟩, 0⟩ ⟨⟨1⟩⟩ 2 quarter (midJanuary 2024) _ _
      hrow).1 _ rfl rfl
  have hkeeps := (hresolved "message_2023_12" ⟨2023, 12, by decide⟩ rfl rfl (by decide +kernel)).1
    ⟨by decide +kernel, by decide +kernel⟩
  exact ⟨hrow, _, outcome, e', rfl, hrun, hkeeps⟩

/-- The table of the next month is made ahead of time and is not retired, but the lookup drops its
subscribers; and so it does where the year of the name is filled up with zeros, which is read as the
current month. -/
theorem lookup_drops_kept_table :
    quarter.nextTable (midJanuary 2024) = "message_2024_02" ∧
    TableName.month quarter.stem "message_2024_02" = .ok ⟨2024, 2, by decide⟩ ∧
    Migration.isRetired quarter (midJanuary 2024) "message_2024_02" = false ∧
    (lookupIn 2024 "message_2024_02").1.map (fun outcome => outcome.user.isSome) =
      .ok false ∧
    Holds routers ⟨⟨1⟩⟩ (lookupIn 2024 "message_2024_02").2.store none ∧
    TableName.month quarter.stem "message_0999_01" = .ok (midJanuary 999).month ∧
    Migration.isRetired quarter (midJanuary 999) "message_0999_01" = false ∧
    (lookupIn 999 "message_0999_01").1.map (fun outcome => outcome.user.isSome) =
      .ok false ∧
    Holds routers ⟨⟨1⟩⟩ (lookupIn 999 "message_0999_01").2.store none := by
  unfold Holds
  decide +kernel

end Lookups

end PushQueue.Router
