import PushQueue.Proofs.Failures
import PushQueue.Proofs.Runs

/-!
Retries of a move. The channels are in the target before the subscriber is pointed there, and both
writes can be made again without a further effect; so a move that was interrupted, however often and
wherever, is completed by the next one as if nothing had happened.
-/

namespace PushQueue

namespace Store

variable {α : Type} {a : α} {s s' : Store} {name p month : String} {row : MessageRow}
  {lastConnect : UInt64} {known : Bool}

def Stores (name : String) (row : MessageRow) (s : Store) : Prop :=
  ∃ rows, s.messageRows name = .ok rows ∧ rows.get? row.key = some row.content

theorem stores_of_putRow (h : putRow name row s = .ok ((), s')) : Stores name row s' := by
  obtain ⟨rows, hrows, -, rfl⟩ := exists_rows_of_updateMessages h
  have hname := isValid_of_table (messageRows_eq_ok_iff.1 hrows)
  refine ⟨_, messageRows_setTable hname s _, ?_⟩
  rw [SortedMap.get?_insert, if_pos rfl]

theorem Stores.putRow_eq (h : Stores name row s) : putRow name row s = .ok ((), s) := by
  obtain ⟨rows, hrows, hget⟩ := h
  rw [putRow, updateMessages_eq hrows, SortedMap.insert_of_get? hget,
    setTable_of_table (messageRows_eq_ok_iff.1 hrows)]

theorem Stores.of_updateRouters {f : RouterRows → α × RouterRows} {other : String}
    (h : Stores name row s) (hupdate : updateRouters other f s = .ok (a, s')) :
    Stores name row s' := by
  obtain ⟨rows, hrows, hget⟩ := h
  exact ⟨rows, messageRows_of_updateRouters hupdate hrows, hget⟩

theorem updateRouters_again {f : RouterRows → α × RouterRows} (hf : ∀ rows, f (f rows).2 = f rows)
    (h : updateRouters name f s = .ok (a, s')) : updateRouters name f s' = .ok (a, s') := by
  obtain ⟨rows, hrows, rfl, rfl⟩ := exists_rows_of_updateRouters h
  have hvalid := isValid_of_table (routerRows_eq_ok_iff.1 hrows)
  have htable := table_setTable hvalid s (.routers (f rows).2)
  rw [updateRouters_eq (routerRows_eq_ok_iff.2 htable), hf, setTable_of_table htable]

theorem setMonth_again (h : setMonth name p month lastConnect s = .ok (known, s')) :
    setMonth name p month lastConnect s' = .ok (known, s') := by
  refine updateRouters_again (fun rows => ?_) h
  cases hget : rows.get? p with
  | none => simp [hget]
  | some stored => simp [SortedMap.get?_insert, SortedMap.insert_of_get?]

theorem SameBut.getRouter_eq {key : RowKey} (h : SameBut name key s s') (other p : String) :
    s'.getRouter other p = s.getRouter other p := by
  unfold getRouter routerRows Store.table
  by_cases hname : other = name
  · subst hname
    rcases h.rows with hrows | ⟨rows, rows', hrows, hrows', -⟩
    · rw [hrows]
    · -- Neither table is one of routers.
      rw [hrows, hrows']
      cases checkName other <;> rfl
  · rw [h.others other hname]

end Store

namespace Migration

open PushQueue.Action

variable {source target : TableHandle} {r : Router} {m : Moment} {u : SubscriberId}
  {e e' : Engine} {s s' s'' : Store} {channels : SortedSet ChannelId}

section Steps

/-- What is left of a move after attempts at it: nothing, the first write, or both. -/
inductive Reached (source target : TableHandle) (r : Router) (m : Moment) (u : SubscriberId)
    (s : Store) : Store → Prop
  | untouched : Reached source target r m u s s
  | carried {s₁ : Store} : Carried source target m u s s₁ → Reached source target r m u s s₁
  | pointed {s₁ s₂ : Store} {known : Bool} : Carried source target m u s s₁ →
    point target r m u s₁ = .ok (known, s₂) → Reached source target r m u s s₂

theorem carry_again (h : carry target m u channels s = .ok ((), s')) :
    carry target m u channels s' = .ok ((), s') := by
  unfold carry at h ⊢
  split at h
  next hempty => rw [if_pos hempty]
  next hchannels =>
    rw [if_neg hchannels]
    exact (Store.stores_of_putRow h).putRow_eq

theorem carry_after_point {s₁ s₂ : Store} {known : Bool}
    (h : carry target m u channels s = .ok ((), s₁))
    (hpoint : point target r m u s₁ = .ok (known, s₂)) :
    carry target m u channels s₂ = .ok ((), s₂) := by
  unfold carry at h ⊢
  split at h
  next hempty => rw [if_pos hempty]
  next hchannels =>
    rw [if_neg hchannels]
    exact ((Store.stores_of_putRow h).of_updateRouters hpoint).putRow_eq

theorem Reached.source_eq (hne : source.table ≠ target.table)
    (h : Reached source target r m u s s') :
    s'.tables.get? source.table = s.tables.get? source.table := by
  cases h with
  | untouched => rfl
  | carried hcarried => exact hcarried.sameBut.others _ hne
  | @pointed s₁ _ _ hcarried hpoint =>
    have hsource := hcarried.sameBut.others _ hne
    obtain ⟨found, channels, hanswer, -⟩ := hcarried
    cases hrows : s.messageRows source.table with
    | error error =>
      rw [answer, hrows] at hanswer
      cases hanswer
    | ok rows =>
      rw [← Store.messageRows_congr hsource] at hrows
      have hrows' := Store.messageRows_of_updateRouters hpoint hrows
      rw [← hsource, Store.get?_of_table (Store.messageRows_eq_ok_iff.1 hrows),
        Store.get?_of_table (Store.messageRows_eq_ok_iff.1 hrows')]

theorem Reached.answer_eq (hne : source.table ≠ target.table)
    (h : Reached source target r m u s s') : answer source u s' = answer source u s := by
  rw [answer, answer, Store.messageRows_congr (h.source_eq hne)]

theorem Reached.cases_of_carry {found : Bool} (hanswer : answer source u s = .ok (found, channels))
    (hcarry : carry target m u channels s = .ok ((), s)) (h : Reached source target r m u s s') :
    s' = s ∨ ∃ known, point target r m u s = .ok (known, s') := by
  have hsame {s₁ : Store} (hcarried : Carried source target m u s s₁) : s₁ = s := by
    obtain ⟨found', channels', hanswer', hcarry'⟩ := hcarried
    obtain ⟨rfl, rfl⟩ := Prod.mk.inj (Except.ok.inj (hanswer.symm.trans hanswer'))
    exact (Prod.mk.inj (Except.ok.inj (hcarry'.symm.trans hcarry))).2
  cases h with
  | untouched => exact .inl rfl
  | carried hcarried => exact .inl (hsame hcarried)
  | pointed hcarried hpoint =>
    rw [hsame hcarried] at hpoint
    exact .inr ⟨_, hpoint⟩

theorem Reached.trans (hne : source.table ≠ target.table) (h : Reached source target r m u s s')
    (h' : Reached source target r m u s' s'') : Reached source target r m u s s'' := by
  have hanswer := h.answer_eq hne
  cases h with
  | untouched => exact h'
  | carried hcarried =>
    obtain ⟨found, channels, hchannels, hcarry⟩ := hcarried
    rcases h'.cases_of_carry (hanswer.trans hchannels) (carry_again hcarry) with rfl | ⟨_, hpoint⟩
    · exact .carried ⟨found, channels, hchannels, hcarry⟩
    · exact .pointed ⟨found, channels, hchannels, hcarry⟩ hpoint
  | pointed hcarried hpoint =>
    obtain ⟨found, channels, hchannels, hcarry⟩ := hcarried
    have hagain : point target r m u s' = .ok (_, s') := Store.setMonth_again hpoint
    rcases h'.cases_of_carry (hanswer.trans hchannels) (carry_after_point hcarry hpoint) with
      rfl | ⟨_, hpoint'⟩
    · exact .pointed ⟨found, channels, hchannels, hcarry⟩ hpoint
    · obtain ⟨-, rfl⟩ := Prod.mk.inj (Except.ok.inj (hpoint'.symm.trans hagain))
      exact .pointed ⟨found, channels, hchannels, hcarry⟩ hpoint

theorem Reached.router_cases (h : Reached source target r m u s s') :
    s'.getRouter r.handle.table (r.handle.partition u) =
        s.getRouter r.handle.table (r.handle.partition u) ∨
      ∃ found channels, answer source u s = .ok (found, channels) ∧
        (channels ≠ .empty → Store.Stores target.table (carriedRow target m u channels) s') := by
  cases h with
  | untouched => exact .inl rfl
  | carried hcarried => exact .inl (hcarried.sameBut.getRouter_eq _ _)
  | pointed hcarried hpoint =>
    obtain ⟨found, channels, hanswer, hcarry⟩ := hcarried
    refine .inr ⟨found, channels, hanswer, fun hchannels => ?_⟩
    rw [carry, if_neg (mt SortedSet.isEmpty_iff.1 hchannels)] at hcarry
    exact (Store.stores_of_putRow hcarry).of_updateRouters hpoint

def attempted (source target : TableHandle) (r : Router) (m : Moment) (u : SubscriberId)
    (e : Engine) (faults : List (Option Fault)) : Engine :=
  e.after (fun e fault => (Action.run (moveSubscriber source target r m u) { e with fault }).2)
    faults

theorem reached_run (e : Engine) :
    Reached source target r m u e.store
      (Action.run (moveSubscriber source target r m u) e).2.store := by
  rcases move_cases (Prod.eta (Action.run (moveSubscriber source target r m u) e)).symm with
    ⟨error, -, hstore | hcarried⟩ | ⟨-, s₁, known, hcarried, hpoint⟩
  · rw [hstore]
    exact .untouched
  · exact .carried hcarried
  · exact .pointed hcarried hpoint

theorem reached_attempted (hne : source.table ≠ target.table) (e : Engine)
    (faults : List (Option Fault)) :
    Reached source target r m u e.store (attempted source target r m u e faults).store :=
  Engine.holds_after (P := fun e' => Reached source target r m u e.store e'.store) .untouched
    fun fault _ e' hreached => hreached.trans hne (reached_run { e' with fault })

end Steps

section Calm

/-- How a move ends that no failure hits. -/
def settled (source target : TableHandle) (r : Router) (m : Moment) (u : SubscriberId) (s : Store) :
    Except StoreError Unit × Store :=
  match answer source u s with
  | .error error => (.error error, s)
  | .ok (_, channels) =>
    match carry target m u channels s with
    | .error error => (.error error, s)
    | .ok (_, s₁) =>
      match point target r m u s₁ with
      | .error error => (.error error, s₁)
      | .ok (_, s₂) => (.ok (), s₂)

theorem Reached.settled_eq (hne : source.table ≠ target.table)
    (h : Reached source target r m u s s') :
    settled source target r m u s' = settled source target r m u s := by
  have hanswer := h.answer_eq hne
  unfold settled
  cases h with
  | untouched => rfl
  | carried hcarried =>
    obtain ⟨found, channels, hchannels, hcarry⟩ := hcarried
    simp only [hanswer, hchannels, hcarry, carry_again hcarry]
  | pointed hcarried hpoint =>
    obtain ⟨found, channels, hchannels, hcarry⟩ := hcarried
    have hagain : point target r m u s' = .ok (_, s') := Store.setMonth_again hpoint
    simp only [hanswer, hchannels, hcarry, carry_after_point hcarry hpoint, hpoint, hagain]

theorem run_all (hfault : e.fault = none) (t : TableHandle) (u : SubscriberId) :
    ∃ stats, Action.run (Channels.all t u) e = (answer t u e.store, { e with stats }) := by
  cases hrows : e.store.messageRows t.table with
  | ok rows =>
    rw [answer, hrows]
    exact Channels.run_all hrows hfault u
  | error error =>
    have hrow : e.store.getRow t.table (RowKey.metadata (t.partition u)) = .error error := by
      rw [Store.getRow, hrows]
      rfl
    apply Action.run_tracked
    simp only [Action.run_bind, Action.run_read hfault, hrow, answer, hrows]
    rfl

theorem reports_iff_answer {t : TableHandle} {reply : Bool × SortedSet ChannelId} :
    Channels.Reports t u e reply ↔ answer t u e.store = .ok reply := by
  obtain ⟨stats, hrun⟩ := run_all (e := { e with fault := none }) rfl t u
  rw [Channels.Reports, hrun]

theorem run_point (hfault : e.fault = none) (target : TableHandle) (r : Router) (m : Moment)
    (u : SubscriberId) :
    ∃ stats, Action.run (r.setMonth m u target.table) e =
      match point target r m u e.store with
      | .ok (known, store) => (.ok known, { e with store, stats })
      | .error error => (.error error, { e with stats }) := by
  obtain ⟨stats, hrun⟩ := Action.run_tracked_call hfault (point target r m u) .updateMessageMonth
  refine ⟨stats, hrun.trans ?_⟩
  cases point target r m u e.store <;> rfl

theorem run_save (hfault : e.fault = none) (hempty : channels.isEmpty = false)
    (target : TableHandle) (m : Moment) (u : SubscriberId) :
    ∃ stats, Action.run (Channels.save target m.now u channels) e =
      match carry target m u channels e.store with
      | .ok (_, store) => (.ok (), { e with store, stats })
      | .error error => (.error error, { e with stats }) := by
  obtain ⟨stats, hrun⟩ := Action.run_tracked_call hfault
    (Store.putRow target.table (carriedRow target m u channels)) .saveChannels
  refine ⟨stats, hrun.trans ?_⟩
  rw [carry, if_neg (by simp [hempty])]
  cases Store.putRow target.table (carriedRow target m u channels) e.store <;> rfl

theorem run_move (hfault : e.fault = none) (source target : TableHandle) (r : Router) (m : Moment)
    (u : SubscriberId) :
    ∃ stats, Action.run (moveSubscriber source target r m u) e =
      ((settled source target r m u e.store).1,
        { e with store := (settled source target r m u e.store).2, stats }) := by
  obtain ⟨stats, hall⟩ := run_all hfault source u
  unfold moveSubscriber settled
  rw [Action.run_bind, hall]
  cases answer source u e.store with
  | error error => exact ⟨stats, rfl⟩
  | ok reply =>
    obtain ⟨found, channels⟩ := reply
    cases hempty : channels.isEmpty with
    | true =>
      obtain ⟨stats, hpoint⟩ := run_point (e := { e with stats }) hfault target r m u
      refine ⟨stats, ?_⟩
      have hcarry : carry target m u channels e.store = .ok ((), e.store) := if_pos hempty
      simp only [hempty, hcarry, Bool.not_true, Bool.false_eq_true, ↓reduceIte, Action.run_bind,
        hpoint]
      cases point target r m u e.store <;> rfl
    | false =>
      obtain ⟨stats, hsave⟩ := run_save (e := { e with stats }) hfault hempty target m u
      simp only [hempty, Bool.not_false, ↓reduceIte, Action.run_bind, hsave]
      cases carry target m u channels e.store with
      | error error => exact ⟨stats, rfl⟩
      | ok result =>
        obtain ⟨stats, hpoint⟩ :=
          run_point (e := { e with store := result.2, stats }) hfault target r m u
        refine ⟨stats, ?_⟩
        simp only [hpoint]
        cases point target r m u result.2 <;> rfl

theorem answer_of_stores (h : Store.Stores target.table (carriedRow target m u channels) s) :
    answer target u s = .ok (true, channels) := by
  obtain ⟨rows, hrows, hget⟩ := h
  rw [answer, hrows]
  simp only [Except.bind, Channels.profile, carriedRow] at hget ⊢
  simp only [hget, Option.getD_some, Channels.readAll_texts]
  rfl

end Calm

/-- However often a move is interrupted, it leaves the table of the source alone and points the
subscriber at the target only once its channels are there; and one more attempt, with no failure to
come, ends as the first would have. -/
theorem interrupted_move_completes (hne : source.table ≠ target.table) (e : Engine)
    (faults : List (Option Fault)) :
    (attempted source target r m u e faults).store.tables.get? source.table =
      e.store.tables.get? source.table ∧
    (∀ row, Router.Holds r u (attempted source target r m u e faults).store (some row) →
      Router.Holds r u e.store (some row) ∨
      ∃ found channels, Channels.Reports source u e (found, channels) ∧
        (channels ≠ .empty →
          Channels.Reports target u (attempted source target r m u e faults) (true, channels))) ∧
    (∀ fault error e', Action.run (moveSubscriber source target r m u)
        { attempted source target r m u e faults with fault } = (.error error, e') →
      ∀ row, Router.Holds r u e'.store row ↔
        Router.Holds r u (attempted source target r m u e faults).store row) ∧
    ∃ result e₁ e₂,
      Action.run (moveSubscriber source target r m u) { e with fault := none } = (result, e₁) ∧
      Action.run (moveSubscriber source target r m u)
        { attempted source target r m u e faults with fault := none } = (result, e₂) ∧
      e₂.store = e₁.store := by
  have hreached : Reached source target r m u e.store
      (attempted source target r m u e faults).store := reached_attempted hne e faults
  refine ⟨hreached.source_eq hne, fun row hrow => ?_, fun fault error e' hrun row => ?_, ?_⟩
  · rcases hreached.router_cases with hrouter | ⟨found, channels, hanswer, hstores⟩
    · exact .inl (hrouter.symm.trans hrow)
    · refine .inr ⟨found, channels, reports_iff_answer.2 hanswer, fun hchannels => ?_⟩
      exact reports_iff_answer.2 (answer_of_stores (hstores hchannels))
  · rcases move_cases hrun with ⟨_, -, hstore | hcarried⟩ | ⟨hresult, -⟩
    · rw [hstore]
    · rw [Router.Holds, Router.Holds, hcarried.sameBut.getRouter_eq]
    · cases hresult
  · obtain ⟨stats₁, hfirst⟩ := run_move (e := { e with fault := none }) rfl source target r m u
    obtain ⟨stats₂, hlast⟩ := run_move
      (e := { attempted source target r m u e faults with fault := none }) rfl source target r m u
    rw [hreached.settled_eq hne] at hlast
    exact ⟨_, _, _, hfirst, hlast, rfl⟩

def settledEngine : Engine :=
  (Action.run (Router.routers.register
    { RouterRecord.fresh ⟨3⟩ ⟨⟨1⟩⟩ with month := some oldMonth.table }) registeredEngine).2

def interruptedEngine : Engine :=
  attempted oldMonth newMonth Router.routers ⟨⟨5⟩, 0⟩ ⟨⟨1⟩⟩ settledEngine
    [some ⟨2, .transient "busy"⟩, some ⟨1, .transient "busy"⟩]

theorem interrupted_move_completes_registered :
    oldMonth.table ≠ newMonth.table ∧
    interruptedEngine.store ≠ settledEngine.store ∧
    ∃ e₁ e₂, Action.run move { settledEngine with fault := none } = (.ok (), e₁) ∧
      Action.run move { interruptedEngine with fault := none } = (.ok (), e₂) ∧
      e₁.store ≠ interruptedEngine.store ∧ e₂.store = e₁.store := by
  have hne : oldMonth.table ≠ newMonth.table := by decide
  have hcarried : interruptedEngine.store ≠ settledEngine.store := by decide +kernel
  have hmoved : (Action.run move { settledEngine with fault := none }).1 = .ok () := by
    decide +kernel
  have hpointed : (Action.run move { settledEngine with fault := none }).2.store ≠
      interruptedEngine.store := by decide +kernel
  obtain ⟨-, -, -, result, e₁, e₂, hfirst, hlast, hstore⟩ :=
    @interrupted_move_completes oldMonth newMonth Router.routers ⟨⟨5⟩, 0⟩ ⟨⟨1⟩⟩ hne settledEngine
      [some ⟨2, .transient "busy"⟩, some ⟨1, .transient "busy"⟩]
  change Action.run move { settledEngine with fault := none } = (result, e₁) at hfirst
  rw [hfirst] at hmoved hpointed
  obtain rfl : result = .ok () := hmoved
  exact ⟨hne, hcarried, e₁, e₂, hfirst, hlast, hpointed, hstore⟩

end Migration

end PushQueue
