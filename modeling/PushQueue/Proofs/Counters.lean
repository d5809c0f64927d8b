import Mathlib.Algebra.Ring.Nat
import PushQueue.Proofs.Readable
import PushQueue.Proofs.Router

/-!
The counters against the services. Every operation is counted as often as a service enters it, and
of the services that fail transiently every one is counted under the operation that failed, but for
one call: a lookup stamps the record outside every operation, and that failure is counted nowhere.
-/

namespace PushQueue

def failedTransiently {α : Type} : Except StoreError α → Bool
  | .error error => error.retryable
  | .ok _ => false

namespace CallStats

variable {stats : CallStats} {log : List (Operation × Bool)} {op : Operation}

def recordAll (stats : CallStats) (log : List (Operation × Bool)) : CallStats :=
  log.foldl (fun stats entry => stats.record entry.1 entry.2) stats

theorem recordAll_append (stats : CallStats) (log log' : List (Operation × Bool)) :
    stats.recordAll (log ++ log') = (stats.recordAll log).recordAll log' := List.foldl_append

theorem recordAll_cons (stats : CallStats) (entry : Operation × Bool)
    (log : List (Operation × Bool)) :
    stats.recordAll (entry :: log) = (stats.record entry.1 entry.2).recordAll log := rfl

theorem enabled_record (h : stats.enabled = true) (op : Operation) (failed : Bool) :
    (stats.record op failed).enabled = true := by
  rw [record, if_pos h]
  exact h

theorem calls_record (h : stats.enabled = true) (op : Operation) (failed : Bool) (o : Operation) :
    (stats.record op failed).calls o = if o = op then stats.calls o + 1 else stats.calls o := by
  rw [record, if_pos h]

theorem transient_record (h : stats.enabled = true) (op : Operation) (failed : Bool)
    (o : Operation) :
    (stats.record op failed).transient o =
      if o = op ∧ failed then stats.transient o + 1 else stats.transient o := by
  rw [record, if_pos h]

theorem calls_recordAll (h : stats.enabled = true) (log : List (Operation × Bool))
    (op : Operation) :
    (stats.recordAll log).calls op = stats.calls op + .ofNat ((log.map Prod.fst).count op) := by
  induction log generalizing stats with
  | nil => exact (UInt64.add_zero _).symm
  | cons entry log ih =>
    rw [recordAll_cons, ih (enabled_record h _ _), calls_record h, List.map_cons]
    by_cases hop : op = entry.1
    · rw [if_pos hop, hop, List.count_cons_self, UInt64.ofNat_add, UInt64.add_assoc,
        UInt64.add_comm 1]
      rfl
    · rw [if_neg hop, List.count_cons_of_ne (Ne.symm hop)]

theorem transient_recordAll (h : stats.enabled = true) (log : List (Operation × Bool))
    (op : Operation) :
    (stats.recordAll log).transient op = stats.transient op + .ofNat (log.count (op, true)) := by
  induction log generalizing stats with
  | nil => exact (UInt64.add_zero _).symm
  | cons entry log ih =>
    rw [recordAll_cons, ih (enabled_record h _ _), transient_record h]
    by_cases hop : entry = (op, true)
    · subst hop
      rw [if_pos ⟨rfl, rfl⟩, List.count_cons_self, UInt64.ofNat_add, UInt64.add_assoc,
        UInt64.add_comm 1]
      rfl
    · have hentry : ¬ (op = entry.1 ∧ entry.2 = true) := fun hentry =>
        hop (Prod.ext hentry.1.symm hentry.2)
      rw [if_neg hentry, List.count_cons_of_ne hop]

theorem sum_map_add_one {ops : List Operation} (hnodup : ops.Nodup) (hop : op ∈ ops)
    (f : Operation → Nat) :
    (ops.map fun o => if o = op then f o + 1 else f o).sum = (ops.map f).sum + 1 := by
  induction ops with
  | nil => cases hop
  | cons first rest ih =>
    obtain ⟨hfirst, hrest⟩ := List.nodup_cons.1 hnodup
    rw [List.map_cons, List.map_cons, List.sum_cons, List.sum_cons]
    rcases List.mem_cons.1 hop with rfl | hop
    · have hmap : (rest.map fun o => if o = op then f o + 1 else f o) = rest.map f :=
        List.map_congr_left fun o ho => if_neg (ne_of_mem_of_not_mem ho hfirst)
      rw [hmap, if_pos rfl, Nat.add_right_comm]
    · rw [ih hrest hop, if_neg (ne_of_mem_of_not_mem hop hfirst).symm, Nat.add_assoc]

theorem sum_count_true (log : List (Operation × Bool)) :
    (Operation.all.map fun op => log.count (op, true)).sum = log.countP Prod.snd := by
  induction log with
  | nil => decide
  | cons entry log ih =>
    obtain ⟨op, failed⟩ := entry
    rw [List.countP_cons, ← ih]
    cases failed with
    | false => simp
    | true =>
      have hcount (o : Operation) : ((op, true) :: log).count (o, true) =
          if o = op then log.count (o, true) + 1 else log.count (o, true) := by
        rw [List.count_cons]
        by_cases ho : o = op <;> simp [ho, Ne.symm]
      simp only [hcount, ↓reduceIte]
      exact sum_map_add_one (by decide) (Operation.mem_all op) fun o => log.count (o, true)

def failures (stats : CallStats) : Nat :=
  (Operation.all.map fun op => (stats.transient op).toNat).sum

end CallStats

namespace Action

variable {α β : Type} {e e' : Engine} {act : Action α} {next : α → Action β} {a : α}
  {error : StoreError} {op : Operation} {ops : List Operation} {lost : Bool}

section Silent

def Silent (act : Action α) : Prop := ∀ e, (Action.run act e).2.stats = e.stats

theorem Silent.pure (a : α) : Silent (pure a) := fun _ => rfl

theorem Silent.call (f : Store → Except StoreError (α × Store)) : Silent (call f) := by
  have hreach (e : Engine) : (call.reach f e).2.stats = e.stats := by
    unfold call.reach
    split <;> rfl
  intro e
  obtain ⟨s, fault, stats⟩ := e
  match fault with
  | none => exact hreach _
  | some ⟨0, error⟩ => rfl
  | some ⟨n + 1, error⟩ => exact hreach _

theorem Silent.bind (h : Silent act) (hnext : ∀ a, Silent (next a)) : Silent (act >>= next) := by
  intro e
  have hact := h e
  rw [run_bind]
  split
  next a e₁ hrun =>
    rw [hrun] at hact
    exact (hnext a e₁).trans hact
  next error e₁ hrun =>
    rw [hrun] at hact
    exact hact

theorem Silent.ofExcept {x : Except StoreError α} (hnext : ∀ a, Silent (next a)) :
    Silent (ofExcept x >>= next) := by
  refine .bind (fun e => ?_) hnext
  rw [run_ofExcept]

end Silent

section Tallies

/-- The operations that a run of the action counts, of which the last one has failed transiently if
the action has; if the failure is lost, the action has failed outside of them. -/
def Tallies (act : Action α) (e : Engine) (ops : List Operation) (lost : Bool) : Prop :=
  ∃ log : List (Operation × Bool), (Action.run act e).2.stats = e.stats.recordAll log ∧
    log.map Prod.fst = ops ∧
    log.countP Prod.snd + lost.toNat = (failedTransiently (Action.run act e).1).toNat

theorem Silent.tallies (h : Silent act) (e : Engine) :
    Tallies act e [] (failedTransiently (Action.run act e).1) :=
  ⟨[], h e, rfl, Nat.zero_add _⟩

theorem Tallies.pure (a : α) (e : Engine) : Tallies (pure a) e [] false := (Silent.pure a).tallies e

theorem Tallies.tracked (op : Operation) (h : Silent act) (e : Engine) :
    Tallies (tracked op act) e [op] false := by
  refine ⟨[(op, failedTransiently (Action.run act e).1)], ?_, rfl, ?_⟩
  · have hstats : (Action.run (Action.tracked op act) e).2.stats =
        (Action.run act e).2.stats.record op (failedTransiently (Action.run act e).1) := rfl
    rw [hstats, h e]
    rfl
  · have hresult : (Action.run (Action.tracked op act) e).1 = (Action.run act e).1 := rfl
    rw [hresult]
    cases failedTransiently (Action.run act e).1 <;> rfl

theorem Tallies.bind_ok (hrun : Action.run act e = (.ok a, e')) (h : Tallies act e [op] false)
    (hnext : Tallies (next a) e' ops lost) : Tallies (act >>= next) e (op :: ops) lost := by
  obtain ⟨log, hstats, hop, hcount⟩ := h
  obtain ⟨log', hstats', rfl, hcount'⟩ := hnext
  rw [hrun] at hstats hcount
  unfold Tallies
  rw [run_bind, hrun]
  refine ⟨log ++ log', ?_, by rw [List.map_append, hop, List.singleton_append], ?_⟩
  · rw [CallStats.recordAll_append, ← hstats, hstats']
  · have hzero : log.countP Prod.snd = 0 := hcount
    rw [List.countP_append, hzero, Nat.zero_add, hcount']

theorem Tallies.bind_error (hrun : Action.run act e = (.error error, e'))
    (h : Tallies act e ops lost) : Tallies (act >>= next) e ops lost := by
  obtain ⟨log, hstats, hops, hcount⟩ := h
  rw [hrun] at hstats hcount
  unfold Tallies
  rw [run_bind, hrun]
  exact ⟨log, hstats, hops, hcount⟩

end Tallies

end Action

namespace Service

open PushQueue.Action

variable {e : Engine} {t : TableHandle} {r : Router} {u : SubscriberId} {m : Moment}

def enteredByCheck (t : TableHandle) (u : SubscriberId) (includeTopics : Bool) (limit : Nat)
    (e : Engine) : List Operation :=
  if includeTopics then
    .fetchMessages ::
      match (Action.run (Mailbox.fetch t u limit) e).1 with
      | .ok page => if page.messages.isEmpty then [.fetchTimestampMessages] else []
      | .error _ => []
  else [.fetchTimestampMessages]

def enteredByLookup (r : Router) (u : SubscriberId) (rotation : Rotation) (today : Date)
    (e : Engine) : List Operation :=
  .getUser ::
    match (Action.run (r.get u) e).1 with
    | .ok (some user) =>
      match user.month.filter (rotation.retains today) with
      | some _ => []
      | none => [.dropUser]
    | _ => []

def enteredByMove (source target : TableHandle) (m : Moment) (u : SubscriberId) (e : Engine) :
    List Operation :=
  .allChannels ::
    match Action.run (Channels.all source u) e with
    | (.ok (_, channels), e) =>
      if channels.isEmpty then [.updateMessageMonth]
      else
        .saveChannels ::
          match (Action.run (Channels.save target m.now u channels) e).1 with
          | .ok _ => [.updateMessageMonth]
          | .error _ => []
    | (.error _, _) => []

/-- The operations that a service enters, itself or by the calls that it is composed of, when it
starts on an engine. -/
def entered : Service → Engine → List Operation
  | .register .., _ => [.registerChannel]
  | .unregister .., _ => [.unregisterChannel]
  | .allChannels .., _ => [.allChannels]
  | .save .., _ => [.saveChannels]
  | .store .., _ => [.storeMessage]
  | .storeAll .., _ => [.storeMessages]
  | .delete .., _ => [.deleteMessage]
  | .fetch .., _ => [.fetchMessages]
  | .fetchAfter .., _ => [.fetchTimestampMessages]
  | .markRead .., _ => [.updateLastMessageRead]
  | .check t u includeTopics _ limit, e => enteredByCheck t u includeTopics limit e
  | .getRecord .., _ => [.getUser]
  | .registerRecord .., _ => [.registerUser]
  | .setMonth .., _ => [.updateMessageMonth]
  | .detachNode .., _ => [.removeNodeId]
  | .drop .., _ => [.dropUser]
  | .lookup r _ u _ rotation today, e => enteredByLookup r u rotation today e
  | .move source target _ m u, e => enteredByMove source target m u e

def fails (s : Service) (e : Engine) : Bool := failedTransiently (Action.run s.action e).1

def stamps (r : Router) (u : SubscriberId) (rotation : Rotation) (today : Date) (e : Engine) :
    Bool :=
  match (Action.run (r.get u) e).1 with
  | .ok (some user) =>
    match user.month.filter (rotation.retains today) with
    | some _ => !LastConnect.inMonth user.lastConnect today.month
    | none => false
  | _ => false

/-- The service is a lookup that fails transiently when it stamps a record. -/
def stampFails : Service → Engine → Bool
  | .lookup r m u connectedAt rotation today, e =>
    stamps r u rotation today e && (Service.lookup r m u connectedAt rotation today).fails e
  | _, _ => false

theorem tallies_all (t : TableHandle) (u : SubscriberId) (e : Engine) :
    Tallies (Channels.all t u) e [.allChannels] false := by
  refine .tracked _ (.bind (.call _) fun row => ?_) e
  cases row with
  | none => exact .pure _
  | some content => exact .ofExcept fun channels => .pure _

theorem tallies_fetch (t : TableHandle) (u : SubscriberId) (limit : Nat) (e : Engine) :
    Tallies (Mailbox.fetch t u limit) e [.fetchMessages] false :=
  .tracked _ (.bind (.call _) fun _ => .ofExcept fun _ => .pure _) e

theorem tallies_fetchAfter (t : TableHandle) (u : SubscriberId) (watermark : Option UInt64)
    (limit : Nat) (e : Engine) :
    Tallies (Mailbox.fetchAfter t u watermark limit) e [.fetchTimestampMessages] false :=
  .tracked _ (.ofExcept fun _ => .bind (.call _) fun _ => .ofExcept fun _ => .pure _) e

theorem tallies_get (r : Router) (u : SubscriberId) (e : Engine) :
    Tallies (r.get u) e [.getUser] false := by
  refine .tracked _ (.bind (.call _) fun row => ?_) e
  cases row with
  | none => exact .pure _
  | some content => exact .ofExcept fun record => .pure _

theorem tallies_bind_pure {α β : Type} {act : Action α} {op : Operation} (f : α → β)
    (h : Tallies act e [op] false) : Tallies (act >>= fun a => pure (f a)) e [op] false := by
  cases hrun : Action.run act e with
  | mk result e' =>
    cases result with
    | ok a => exact .bind_ok hrun h (.pure _ _)
    | error error => exact .bind_error hrun h

theorem tallies_check (t : TableHandle) (u : SubscriberId) (includeTopics : Bool)
    (watermark : Option UInt64) (limit : Nat) (e : Engine) :
    Tallies (Mailbox.check t u includeTopics watermark limit) e
      (enteredByCheck t u includeTopics limit e) false := by
  have hqueue (watermark : Option UInt64) (e : Engine) :
      Tallies (Mailbox.check.queue t u limit watermark) e [.fetchTimestampMessages] false :=
    tallies_bind_pure _ (tallies_fetchAfter t u watermark limit e)
  cases includeTopics with
  | false => exact hqueue watermark e
  | true =>
    have hfetch := tallies_fetch t u limit e
    rw [enteredByCheck, if_pos rfl]
    cases hrun : Action.run (Mailbox.fetch t u limit) e with
    | mk result e' =>
      cases result with
      | error error => exact .bind_error hrun hfetch
      | ok page =>
        refine .bind_ok hrun hfetch ?_
        simp only
        cases page.messages.isEmpty with
        | true => exact hqueue _ e'
        | false => exact .pure _ _

theorem tallies_move (source target : TableHandle) (r : Router) (m : Moment) (u : SubscriberId)
    (e : Engine) :
    Tallies (Migration.moveSubscriber source target r m u) e (enteredByMove source target m u e)
      false := by
  have hmonth (e : Engine) :
      Tallies (r.setMonth m u target.table >>= fun _ => pure ()) e [.updateMessageMonth] false :=
    tallies_bind_pure _ (.tracked _ (.call _) e)
  have hall := tallies_all source u e
  unfold enteredByMove
  cases hrun : Action.run (Channels.all source u) e with
  | mk result e' =>
    cases result with
    | error error => exact .bind_error hrun hall
    | ok answer =>
      obtain ⟨found, channels⟩ := answer
      refine .bind_ok hrun hall ?_
      simp only
      cases channels.isEmpty with
      | true => exact hmonth e'
      | false =>
        have hsave : Tallies (Channels.save target m.now u channels) e' [.saveChannels] false :=
          .tracked _ (.call _) e'
        simp only [Bool.not_false, ↓reduceIte]
        cases hrun' : Action.run (Channels.save target m.now u channels) e' with
        | mk result' e'' =>
          cases result' with
          | error error => exact .bind_error hrun' hsave
          | ok => exact .bind_ok hrun' hsave (hmonth e'')

theorem tallies_lookup (r : Router) (m : Moment) (u : SubscriberId) (connectedAt : UInt64)
    (rotation : Rotation) (today : Date) (e : Engine) :
    Tallies (r.lookup m u connectedAt rotation today) e (enteredByLookup r u rotation today e)
      (stamps r u rotation today e &&
        failedTransiently (Action.run (r.lookup m u connectedAt rotation today) e).1) := by
  have hget := tallies_get r u e
  unfold enteredByLookup stamps
  cases hrun : Action.run (r.get u) e with
  | mk result e' =>
    cases result with
    | error error => exact .bind_error hrun hget
    | ok user =>
      cases user with
      | none => exact .bind_ok hrun hget (.pure _ _)
      | some user =>
        cases hmonth : user.month.filter (rotation.retains today) with
        | none =>
          refine .bind_ok hrun hget ?_
          simp only [hmonth]
          exact tallies_bind_pure _ (.tracked _ (.call _) e')
        | some month =>
          cases hin : LastConnect.inMonth user.lastConnect today.month with
          | true =>
            refine .bind_ok hrun hget ?_
            simp only [hmonth, hin, ↓reduceIte]
            exact .pure _ _
          | false =>
            unfold Router.lookup
            rw [run_bind, hrun]
            refine .bind_ok hrun hget ?_
            simp only [hmonth, hin]
            refine Silent.tallies ?_ e'
            exact .bind (.call _) fun _ => .bind (.pure _) fun _ => .pure _

theorem tallies (s : Service) (e : Engine) : Tallies s.action e (s.entered e) (s.stampFails e) := by
  cases s with
  | register t now u channel ttl =>
    exact .tracked _ (.bind (.call _) fun _ => .pure _) e
  | unregister t now u channel =>
    exact .tracked _ (.bind (.call _) fun _ => .pure _) e
  | allChannels t u => exact tallies_all t u e
  | save t now u channels => exact .tracked _ (.call _) e
  | store t now n => exact .tracked _ (.ofExcept fun _ => .bind (.call _) fun _ => .pure _) e
  | storeAll t now u ns => exact .tracked _ (.ofExcept fun _ => .call _) e
  | delete t n => exact .tracked _ (.ofExcept fun _ => .call _) e
  | fetch t u limit => exact tallies_fetch t u limit e
  | fetchAfter t u watermark limit => exact tallies_fetchAfter t u watermark limit e
  | markRead t now u position => exact .tracked _ (.ofExcept fun _ => .call _) e
  | check t u includeTopics watermark limit =>
    exact tallies_check t u includeTopics watermark limit e
  | getRecord r u => exact tallies_get r u e
  | registerRecord r record => exact .tracked _ (.call _) e
  | setMonth r m u month => exact .tracked _ (.call _) e
  | detachNode r u node connectedAt => exact .tracked _ (.call _) e
  | drop r u => exact .tracked _ (.call _) e
  | lookup r m u connectedAt rotation today =>
    exact tallies_lookup r m u connectedAt rotation today e
  | move source target r m u => exact tallies_move source target r m u e

end Service

section Runs

open PushQueue.Action

variable {e : Engine}

/-- The services of a run, each with the engine that it starts on. -/
def starts (e : Engine) (attempts : List Attempt) : List (Service × Engine) :=
  (e.trace Attempt.step attempts).map fun taken =>
    (taken.2.service, { taken.1 with fault := taken.2.fault })

theorem starts_cons (e : Engine) (a : Attempt) (rest : List Attempt) :
    starts e (a :: rest) = (a.service, { e with fault := a.fault }) :: starts (a.step e) rest :=
  rfl

/-- A run counts what its services enter, and every transient failure but those of stamps. -/
theorem tallies_attemptAll (e : Engine) (attempts : List Attempt) :
    ∃ log : List (Operation × Bool), (attemptAll e attempts).stats = e.stats.recordAll log ∧
      log.map Prod.fst = (starts e attempts).flatMap (fun start => start.1.entered start.2) ∧
      log.countP Prod.snd + (starts e attempts).countP (fun start => start.1.stampFails start.2) =
        (starts e attempts).countP fun start => start.1.fails start.2 := by
  induction attempts generalizing e with
  | nil => exact ⟨[], rfl, rfl, rfl⟩
  | cons a rest ih =>
    obtain ⟨first, hfirst, hentered, hcount⟩ := a.service.tallies { e with fault := a.fault }
    obtain ⟨later, hlater, hentered', hcount'⟩ := ih (a.step e)
    refine ⟨first ++ later, ?_, ?_, ?_⟩
    · rw [CallStats.recordAll_append]
      exact hlater.trans (congrArg (CallStats.recordAll · later) hfirst)
    · rw [List.map_append, hentered, hentered', starts_cons, List.flatMap_cons]
    · have htoNat (b : Bool) : b.toNat = if b = true then 1 else 0 := Bool.cond_eq_ite b 1 0
      rw [htoNat, htoNat] at hcount
      simp only [starts_cons, List.countP_append, List.countP_cons, Service.fails] at hcount' ⊢
      omega

def counting (s : Store) : Engine := ⟨s, none, .new true⟩

/-- The calls of an operation are the times that a service entered it, and its failures are as many
of these as failed; together with the failures of stamps these are all transient failures. The
counters are these numbers modulo `2 ^ 64`. While no more operations are entered than a counter can
count, every transient failure is counted if and only if none of them is the failure of a stamp. -/
theorem failures_counted_iff (s : Store) (attempts : List Attempt) :
    let stats := (attemptAll (counting s) attempts).stats
    let run := starts (counting s) attempts
    let calls := run.flatMap fun start => start.1.entered start.2
    (∀ op, stats.calls op = .ofNat (calls.count op)) ∧
    (∃ failed : Operation → Nat,
      (∀ op, stats.transient op = .ofNat (failed op) ∧ failed op ≤ calls.count op) ∧
      (Operation.all.map failed).sum + run.countP (fun start => start.1.stampFails start.2) =
        run.countP fun start => start.1.fails start.2) ∧
    (calls.length < 2 ^ 64 →
      (stats.failures = run.countP (fun start => start.1.fails start.2) ↔
        ∀ start ∈ run, start.1.stampFails start.2 = false) ∧
      (∀ op, stats.transient op ≤ stats.calls op) ∧
      ∀ op, (stats.calls op).toNat = calls.count op) := by
  intro stats run calls
  obtain ⟨log, hstats, hentered, hcount⟩ : ∃ log : List (Operation × Bool),
      stats = (counting s).stats.recordAll log ∧ log.map Prod.fst = calls ∧
      log.countP Prod.snd + run.countP (fun start => start.1.stampFails start.2) =
        run.countP fun start => start.1.fails start.2 := tallies_attemptAll (counting s) attempts
  have henabled : (counting s).stats.enabled = true := rfl
  have hcalls (op : Operation) : stats.calls op = .ofNat (calls.count op) := by
    rw [hstats, CallStats.calls_recordAll henabled, hentered]
    exact UInt64.zero_add _
  have hfailed (op : Operation) : stats.transient op = .ofNat (log.count (op, true)) := by
    rw [hstats, CallStats.transient_recordAll henabled]
    exact UInt64.zero_add _
  have hle (op : Operation) : log.count (op, true) ≤ calls.count op := by
    rw [← hentered]
    exact List.count_le_count_map (f := Prod.fst) (x := (op, true))
  have hsum := CallStats.sum_count_true log
  refine ⟨hcalls, ⟨fun op => log.count (op, true), fun op => ⟨hfailed op, hle op⟩, ?_⟩,
    fun hbound => ?_⟩
  · rw [hsum]
    exact hcount
  · have hword {n : Nat} (op : Operation) (h : n ≤ calls.count op) :
        (UInt64.ofNat n).toNat = n :=
      Nat.mod_eq_of_lt (Nat.lt_of_le_of_lt (Nat.le_trans h List.count_le_length) hbound)
    have htransient (op : Operation) : (stats.transient op).toNat = log.count (op, true) := by
      rw [hfailed, hword op (hle op)]
    have hexact (op : Operation) : (stats.calls op).toNat = calls.count op := by
      rw [hcalls, hword op (Nat.le_refl _)]
    refine ⟨?_, fun op => ?_, hexact⟩
    · have hlost : run.countP (fun start => start.1.stampFails start.2) = 0 ↔ _ :=
        List.countP_eq_zero
      simp only [Bool.not_eq_true] at hlost
      rw [← hlost, CallStats.failures]
      simp only [htransient, hsum]
      omega
    · rw [UInt64.le_iff_toNat_le, htransient, hexact]
      exact hle op

/-- A lookup of a subscriber of the current month, whose second call meets a busy engine. -/
def busyLookup : Attempt where
  service := .lookup Router.routers ⟨⟨5⟩, 0⟩ ⟨⟨1⟩⟩ 2 Router.quarter (Router.midJanuary 2024)
  fault := some ⟨1, .transient "busy"⟩

def busyRead : List Attempt :=
  [⟨.getRecord Router.routers ⟨⟨1⟩⟩, some ⟨0, .transient "busy"⟩⟩, { busyLookup with fault := none }]

theorem failures_counted_iff_read :
    let store := (Router.engineInMonth "message_2024_01").store
    let stats := (attemptAll (counting store) busyRead).stats
    let run := starts (counting store) busyRead
    let calls := run.flatMap fun start => start.1.entered start.2
    calls.length < 2 ^ 64 ∧ (∀ start ∈ run, start.1.stampFails start.2 = false) ∧
      run.countP (fun start => start.1.fails start.2) = 1 ∧ stats.failures = 1 ∧
      (stats.calls .getUser).toNat = 2 := by
  intro store stats run calls
  have hcalls : calls = [.getUser, .getUser] := by decide +kernel
  have hlength : calls.length < 2 ^ 64 := by
    rw [hcalls]
    decide
  have hstamps : ∀ start ∈ run, start.1.stampFails start.2 = false := by decide +kernel
  have hfails : run.countP (fun start => start.1.fails start.2) = 1 := by decide +kernel
  obtain ⟨hcounted, -, hexact⟩ := (failures_counted_iff store busyRead).2.2 hlength
  refine ⟨hlength, hstamps, hfails, (hcounted.2 hstamps).trans hfails, (hexact .getUser).trans ?_⟩
  change calls.count .getUser = 2
  rw [hcalls]
  rfl

/-- The caller is told of the failure, and the counters are not. -/
theorem stamp_failure_uncounted :
    let store := (Router.engineInMonth "message_2024_01").store
    (starts (counting store) [busyLookup]).countP (fun start => start.1.fails start.2) = 1 ∧
      (attemptAll (counting store) [busyLookup]).stats.failures = 0 ∧
      (attemptAll (counting store) [busyLookup]).stats.snapshot = [("get_user", 1, 0)] := by
  decide +kernel

end Runs

end PushQueue
