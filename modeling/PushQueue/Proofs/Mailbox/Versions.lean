import PushQueue.Proofs.Mailbox.Refinement
import PushQueue.Proofs.Mailbox.Visits

/-!
Acknowledgements: deletes that carry a version. Such a delete takes the row away only while the row
carries the version too. So every store of a version can be acknowledged once, and a row that was
written anew outlives the acknowledgements of what it replaced.
-/

namespace PushQueue.Mailbox

variable {t : TableHandle} {k : RowKey} {x : String} {v : Visit} {e : Engine} {rows : MessageRows}
  {row : Option RowContent}

namespace Visit

/-- The version that the visit stores under a key; of several in one batch the last one stays. -/
def version? (t : TableHandle) (k : RowKey) (v : Visit) : Option String :=
  (lastAt k (v.request.call.written (v.handle t) v.request.now)).bind RowContent.updateId

/-- The visit is a delete of the row under a key that carries a version. -/
def isAckOf (t : TableHandle) (k : RowKey) (x : String) (v : Visit) : Bool :=
  match v.request.call with
  | .delete n => v.request.call.target? (v.handle t) = some k && n.updateId = some x
  | _ => false

def isHit (v : Visit) : Bool := v.request.fault.any fun fault => fault.after = 0

def answer? (t : TableHandle) (e : Engine) (v : Visit) : Option (Except StoreError Bool) :=
  match v.request.call with
  | .delete n =>
    some (Action.run (Mailbox.delete (v.handle t) n) { e with fault := v.request.fault }).1
  | _ => none

end Visit

/-- How many deletes of the row under a key carried a version and answered yes. -/
def acks (t : TableHandle) (k : RowKey) (x : String) (e : Engine) (visits : List Visit) : Nat :=
  (e.trace (fun e v => (v.serve t e).2) visits).countP fun taken =>
    taken.2.isAckOf t k x = true ∧ taken.2.answer? t taken.1 = some (.ok true)

def stores (t : TableHandle) (k : RowKey) (x : String) (e : Engine) (visits : List Visit) : Nat :=
  (acceptedVisits t e visits).countP fun v => v.version? t k = some x

def latest (t : TableHandle) (k : RowKey) (e : Engine) (visits : List Visit) : Option String :=
  (acceptedVisits t e visits).foldl (fun last v => (v.version? t k).or last) none

section Rows

def Carries (x : String) (row : Option RowContent) : Prop :=
  row.bind RowContent.updateId = some x

instance : Decidable (Carries x row) := inferInstanceAs (Decidable (_ = _))

@[simp] theorem not_carries_none (x : String) : ¬ Carries x none := nofun

theorem carries_of_upserted {name : String} {write : RowContent → RowContent}
    (h : Carries x (some (upserted name write row)))
    (hwrite : ∀ stored, (write stored).updateId = stored.updateId) : Carries x row := by
  have h : (upserted name write row).updateId = some x := h
  unfold upserted at h
  split at h
  · cases (hwrite {}).symm.trans h
  · split at h
    · exact h
    · exact (hwrite _).symm.trans h

theorem Call.carries_of_onProfile {now : Instant} {call : Call}
    (h : Carries x (call.onProfile t now row)) : Carries x row := by
  cases call with
  | register | unregister | markRead => exact carries_of_upserted h fun _ => rfl
  | save => cases h
  | store | storeAll | delete => exact h

/-- A row carries a version because the visit stored it, or because it did before; in that case the
visit did not acknowledge it. -/
theorem Visit.carries_of_onRow (h : Carries x (v.onRow t k row)) :
    (v.request.isAdmitted = true ∧ v.version? t k = some x) ∨
      Carries x row ∧ (v.request.isAdmitted = true → v.version? t k = none ∧
        v.isAckOf t k x = false) := by
  obtain ⟨pseudonym, maxTtl, request⟩ := v
  obtain ⟨now, fault, call⟩ := request
  unfold onRow at h
  split at h
  case isFalse hrefused => exact .inr ⟨h, fun hadmitted => absurd hadmitted hrefused⟩
  case isTrue hadmitted =>
    cases call with
    | store | storeAll =>
      rw [Call.onRow] at h
      unfold version?
      cases hlast : lastAt k _ with
      | none =>
        rw [hlast, Option.none_or] at h
        exact .inr ⟨h, fun _ => ⟨rfl, rfl⟩⟩
      | some content =>
        rw [hlast] at h
        exact .inl ⟨hadmitted, h⟩
    | delete n =>
      rw [Call.onRow] at h
      split at h
      case isTrue => cases h
      case isFalse hkept =>
        refine .inr ⟨h, fun _ => ⟨rfl, Bool.eq_false_iff.2 fun hack => hkept ?_⟩⟩
        obtain ⟨htarget, hid⟩ := Bool.and_eq_true_iff.1 hack
        exact ⟨of_decide_eq_true htarget, .inr ((of_decide_eq_true hid).trans h.symm)⟩
    | markRead | register | unregister | save =>
      refine .inr ⟨?_, fun _ => ⟨rfl, rfl⟩⟩
      rw [Call.onRow] at h
      split at h
      · exact Call.carries_of_onProfile h
      · exact h

theorem carries_foldl_onRow {last : Option String} (visits : List Visit)
    (hlast : ∀ x, Carries x row → last = some x)
    (h : Carries x (visits.foldl (Visit.onRow t k) row)) :
    (visits.filter fun v => v.request.isAdmitted).foldl
      (fun last v => (v.version? t k).or last) last = some x := by
  induction visits generalizing row last with
  | nil => exact hlast x h
  | cons v rest ih =>
    rw [List.filter_cons]
    split
    case isTrue hadmitted =>
      refine ih (fun y hy => ?_) h
      rcases Visit.carries_of_onRow hy with ⟨-, hversion⟩ | ⟨hrow, hkept⟩
      · simp only [hversion, Option.some_or]
      · simp only [(hkept hadmitted).1, Option.none_or]
        exact hlast y hrow
    case isFalse hrefused =>
      refine ih (fun y hy => ?_) h
      rcases Visit.carries_of_onRow hy with ⟨hadmitted, -⟩ | ⟨hrow, -⟩
      · exact absurd hadmitted hrefused
      · exact hlast y hrow

end Rows

section Answers

theorem Visit.isAdmitted_of_ack (h : v.isAckOf t k x = true) :
    v.request.isAdmitted = !v.isHit := by
  obtain ⟨pseudonym, maxTtl, now, fault, call⟩ := v
  cases call with
  | delete n =>
    obtain ⟨htarget, -⟩ := Bool.and_eq_true_iff.1 h
    obtain ⟨key, hkey, -⟩ := Option.map_eq_some_iff.1 (of_decide_eq_true htarget)
    have hwf : (Call.delete n).isWellFormed now = true :=
      (exists_sortKey_iff n).1 ⟨key, toOption_eq_some_iff.1 hkey⟩
    unfold Request.isAdmitted
    rw [hwf, Bool.and_true]
    rfl
  | store | storeAll | markRead | register | unregister | save => cases h

theorem deleted_version (rows : MessageRows) (k : RowKey) (x : String) :
    deleted rows k (some x) =
      if Carries x (rows.get? k) then (true, rows.erase k) else (false, rows) := rfl

theorem Visit.answer_of_delete {n : Notification} (hrows : e.store.messageRows t.table = .ok rows)
    (hcall : v.request.call = .delete n) (hadmitted : v.request.isAdmitted = true)
    (htarget : v.request.call.target? (v.handle t) = some k) :
    v.answer? t e = some (.ok (decide
      (n.updateId = none ∨ n.updateId = (rows.get? k).bind RowContent.updateId))) := by
  obtain ⟨pseudonym, maxTtl, now, fault, call⟩ := v
  obtain rfl : call = .delete n := hcall
  obtain ⟨hopen, -⟩ := Bool.and_eq_true_iff.1 hadmitted
  obtain ⟨key, hkey, rfl⟩ := Option.map_eq_some_iff.1 htarget
  have hopen : ({ e with fault } : Engine).isBlocked = false := by
    simpa [Engine.isBlocked] using hopen
  rw [← table_handle t ⟨pseudonym, maxTtl, now, fault, .delete n⟩] at hrows
  obtain ⟨e', hrun, -⟩ := gives_delete (e := { e with fault }) hrows hopen
    (toOption_eq_some_iff.1 hkey)
  rw [fst_deleted] at hrun
  exact congrArg (fun result => some result.1) hrun

theorem Visit.answer_of_ack (h : v.isAckOf t k x = true) (hhit : v.isHit = false)
    (hrows : e.store.messageRows t.table = .ok rows) :
    v.answer? t e = some (.ok (decide (Carries x (rows.get? k)))) := by
  have hadmitted : v.request.isAdmitted = true := by rw [isAdmitted_of_ack h, hhit, Bool.not_false]
  cases hcall : v.request.call with
  | delete n =>
    unfold isAckOf at h
    rw [hcall] at h
    obtain ⟨htarget, hid⟩ := Bool.and_eq_true_iff.1 h
    rw [answer_of_delete hrows hcall hadmitted (hcall ▸ of_decide_eq_true htarget),
      of_decide_eq_true hid]
    simp [Carries, eq_comm]
  | store | storeAll | markRead | register | unregister | save =>
    unfold isAckOf at h
    rw [hcall] at h
    cases h

theorem Visit.store_of_ack (h : v.isAckOf t k x = true) (hhit : v.isHit = false)
    (hrows : e.store.messageRows t.table = .ok rows) (hnot : ¬ Carries x (rows.get? k)) :
    (v.serve t e).2.store = e.store := by
  obtain ⟨pseudonym, maxTtl, now, fault, call⟩ := v
  cases call with
  | delete n =>
    obtain ⟨htarget, hid⟩ := Bool.and_eq_true_iff.1 h
    obtain ⟨key, hkey, rfl⟩ := Option.map_eq_some_iff.1 (of_decide_eq_true htarget)
    rw [← table_handle t ⟨pseudonym, maxTtl, now, fault, .delete n⟩] at hrows
    have hgives := gives_delete (e := { e with fault }) hrows hhit (toOption_eq_some_iff.1 hkey)
    rw [of_decide_eq_true hid, deleted_version, if_neg hnot,
      Store.setTable_of_table (Store.messageRows_eq_ok_iff.1 hrows)] at hgives
    obtain ⟨e', hrun, hstore⟩ := hgives.bind_pure fun _ => ()
    rw [← hstore]
    exact congrArg (fun result => result.2.store) hrun
  | store | storeAll | markRead | register | unregister | save => cases h

theorem Visit.isAdmitted_of_answer {answer : Bool} (h : v.answer? t e = some (.ok answer)) :
    v.request.isAdmitted = true := by
  rw [← Bool.not_eq_false]
  intro hrefused
  obtain ⟨error, e₁, hserve, -⟩ := Request.serve_refused (t := v.handle t) e hrefused
  obtain ⟨pseudonym, maxTtl, now, fault, call⟩ := v
  cases call with
  | delete n =>
    have hgives : (Mailbox.delete (handle t ⟨pseudonym, maxTtl, now, fault, .delete n⟩) n).Gives
        { e with fault } answer _ := ⟨_, Prod.ext (Option.some.inj h) rfl, rfl⟩
    obtain ⟨e₂, hrun, -⟩ := hgives.bind_pure fun _ => ()
    cases hserve.symm.trans hrun
  | store | storeAll | markRead | register | unregister | save => cases h

theorem Visit.serve_of_hit (t : TableHandle) (e : Engine) (h : v.isAckOf t k x = true)
    (hhit : v.isHit = true) : (v.serve t e).2.store = e.store := by
  have hrefused : v.request.isAdmitted = false := by rw [isAdmitted_of_ack h, hhit, Bool.not_true]
  obtain ⟨error, e', hserve, hstore⟩ := Request.serve_refused (t := v.handle t) e hrefused
  unfold serve
  rw [hserve]
  exact hstore

end Answers

section Runs

theorem Visit.acknowledges_iff (hrows : e.store.messageRows t.table = .ok rows) :
    v.isAckOf t k x = true ∧ v.answer? t e = some (.ok true) ↔
      v.isAckOf t k x = true ∧ v.isHit = false ∧ Carries x (rows.get? k) := by
  refine and_congr_right fun hack => ?_
  constructor
  · intro hanswer
    have hhit : v.isHit = false := by
      have hadmitted := isAdmitted_of_answer hanswer
      rwa [isAdmitted_of_ack hack, Bool.not_eq_true'] at hadmitted
    rw [answer_of_ack hack hhit hrows] at hanswer
    exact ⟨hhit, of_decide_eq_true (Except.ok.inj (Option.some.inj hanswer))⟩
  · rintro ⟨hhit, hcarries⟩
    rw [answer_of_ack hack hhit hrows, decide_eq_true hcarries]

theorem Visit.onRow_of_ack (h : v.isAckOf t k x = true) (row : Option RowContent) :
    v.onRow t k row = if v.isHit = false ∧ Carries x row then none else row := by
  unfold onRow
  rw [isAdmitted_of_ack h]
  obtain ⟨pseudonym, maxTtl, now, fault, call⟩ := v
  cases call with
  | delete n =>
    obtain ⟨htarget, hid⟩ := Bool.and_eq_true_iff.1 h
    rw [Call.onRow, of_decide_eq_true htarget, of_decide_eq_true hid]
    cases isHit _ <;> simp [Carries, eq_comm]
  | store | storeAll | markRead | register | unregister | save => cases h

theorem Visit.acks_step (hrows : e.store.messageRows t.table = .ok rows) :
    (if v.isAckOf t k x = true ∧ v.answer? t e = some (.ok true) then 1 else 0) +
        (if Carries x (v.onRow t k (rows.get? k)) then 1 else 0) ≤
      (if (v.version? t k = some x && v.request.isAdmitted) = true then 1 else 0) +
        (if Carries x (rows.get? k) then 1 else 0) := by
  by_cases hacknowledges : v.isAckOf t k x = true ∧ v.answer? t e = some (.ok true)
  · obtain ⟨hack, hhit, hcarries⟩ := (acknowledges_iff hrows).1 hacknowledges
    have hgone : v.onRow t k (rows.get? k) = none := by
      rw [onRow_of_ack hack, if_pos ⟨hhit, hcarries⟩]
    rw [if_pos hacknowledges, hgone, if_neg (not_carries_none x), if_pos hcarries]
    omega
  · rw [if_neg hacknowledges]
    by_cases hafter : Carries x (v.onRow t k (rows.get? k))
    · rw [if_pos hafter]
      rcases carries_of_onRow hafter with ⟨hadmitted, hversion⟩ | ⟨hcarries, -⟩
      · rw [if_pos (Bool.and_eq_true_iff.2 ⟨decide_eq_true hversion, hadmitted⟩)]
        omega
      · rw [if_pos hcarries]
        omega
    · rw [if_neg hafter]
      omega

theorem acks_cons (t : TableHandle) (k : RowKey) (x : String) (e : Engine) (v : Visit)
    (rest : List Visit) :
    acks t k x e (v :: rest) = acks t k x (v.serve t e).2 rest +
      if v.isAckOf t k x = true ∧ v.answer? t e = some (.ok true) then 1 else 0 := by
  rw [acks, Engine.trace, List.countP_cons]
  simp only [decide_eq_true_eq]
  rfl

/-- Over a run every acknowledgement has a store of its own, and one more is left for the row. -/
theorem acks_le (hrows : e.store.messageRows t.table = .ok rows) (visits : List Visit) :
    acks t k x e visits +
        (if Carries x (visits.foldl (Visit.onRow t k) (rows.get? k)) then 1 else 0) ≤
      visits.countP (fun v => v.version? t k = some x && v.request.isAdmitted) +
        (if Carries x (rows.get? k) then 1 else 0) := by
  induction visits generalizing e rows with
  | nil => rw [acks, Engine.trace, List.foldl_nil, List.countP_nil, List.countP_nil]
  | cons v rest ih =>
    obtain ⟨-, rows', hrows', hrow⟩ := v.serve_spec hrows
    have hstep := v.acks_step (k := k) (x := x) hrows
    have hrest := ih hrows'
    rw [hrow] at hrest
    rw [acks_cons, List.foldl_cons, List.countP_cons]
    omega

/-- While nothing but acknowledgements is about a row that carries the version, the first one that
gets through says yes and no other. -/
theorem acks_eq (hrows : e.store.messageRows t.table = .ok rows) {visits : List Visit}
    (hnames : ∀ v ∈ visits, v.names t k = true → v.isAckOf t k x = true) :
    acks t k x e visits =
      if Carries x (rows.get? k) ∧ ∃ v ∈ visits, v.isAckOf t k x = true ∧ v.isHit = false then 1
      else 0 := by
  induction visits generalizing e rows with
  | nil => simp [acks, Engine.trace]
  | cons v rest ih =>
    obtain ⟨hv, hrest⟩ := List.forall_mem_cons.1 hnames
    obtain ⟨-, rows', hrows', hrow⟩ := v.serve_spec hrows
    rw [acks_cons, ih hrows' hrest, hrow]
    simp only [Visit.acknowledges_iff hrows, List.exists_mem_cons_iff]
    by_cases hack : v.isAckOf t k x = true
    · rw [Visit.onRow_of_ack hack]
      cases hhit : v.isHit with
      | true => simp
      | false =>
        by_cases hcarries : Carries x (rows.get? k) <;> simp [hack, hcarries]
    · rw [Visit.onRow_of_not_names (Bool.eq_false_iff.2 (mt hv hack))]
      simp [hack]

end Runs

def CarriesAt (t : TableHandle) (k : RowKey) (x : String) (e : Engine) : Prop :=
  ∃ rows, e.store.messageRows t.table = .ok rows ∧ Carries x (rows.get? k)

structure Guarded (t : TableHandle) (k : RowKey) (x : String) (e : Engine) (visits : List Visit) :
    Prop where
  acks_le_stores : acks t k x e visits ≤ stores t k x e visits
  /-- Once another version was stored, an acknowledgement changes nothing, and says so unless the
  failure hits it. -/
  keeps_newer : ∀ v : Visit, v.isAckOf t k x = true → latest t k e visits ≠ some x →
    (v.isHit = false → v.answer? t (visitAll t e visits) = some (.ok false)) ∧
      (v.serve t (visitAll t e visits)).2.store = (visitAll t e visits).store
  /-- Of the acknowledgements of the row as it stands exactly one says yes, as long as no other
  visit is about the row. -/
  one_succeeds : CarriesAt t k x (visitAll t e visits) → ∀ more : List Visit,
    (∀ v ∈ more, v.names t k = true → v.isAckOf t k x = true) →
    (∃ v ∈ more, v.isAckOf t k x = true ∧ v.isHit = false) →
    acks t k x (visitAll t e visits) more = 1

/-- Whatever clients do in whatever order on a table that was empty, no version of a row is
acknowledged more often than it was stored, nor after it was replaced. -/
theorem version_acknowledged_once (hempty : e.store.messageRows t.table = .ok .empty)
    (visits : List Visit) (k : RowKey) (x : String) : Guarded t k x e visits := by
  obtain ⟨rows, hrows, hrow⟩ := exists_rows_visitAll hempty visits
  have haccepted := acceptedVisits_eq_filter ⟨_, hempty⟩ visits
  constructor
  case acks_le_stores =>
    have hle := acks_le (k := k) (x := x) hempty visits
    rw [SortedMap.get?_empty, if_neg (not_carries_none x)] at hle
    rw [stores, haccepted, List.countP_filter]
    exact (Nat.le_add_right _ _).trans hle
  case keeps_newer =>
    intro v hack hlatest
    have hnot : ¬ Carries x (rows.get? k) := by
      rw [hrow]
      intro hcarries
      refine hlatest ?_
      rw [latest, haccepted]
      exact carries_foldl_onRow visits (fun y hy => absurd hy (not_carries_none y)) hcarries
    cases hhit : v.isHit with
    | true => exact ⟨nofun, Visit.serve_of_hit t _ hack hhit⟩
    | false =>
      have hanswer := Visit.answer_of_ack hack hhit hrows
      rw [decide_eq_false hnot] at hanswer
      exact ⟨fun _ => hanswer, Visit.store_of_ack hack hhit hrows hnot⟩
  case one_succeeds =>
    rintro ⟨rows', hrows', hcarries⟩ more hnames hsome
    obtain rfl : rows = rows' := Except.ok.inj (hrows.symm.trans hrows')
    rw [acks_eq hrows hnames, if_pos ⟨hcarries, hsome⟩]

def plainVisit (second : Int) (call : Call) : Visit :=
  ⟨.disabled, maxRetention, ⟨⟨1000 * second⟩, none, call⟩⟩

/-- The version `m` is stored, acknowledged twice, and replaced in one batch by two others, of which
the second stays. -/
def replacedVisits : List Visit :=
  [plainVisit 1 (.store queuedNotification),
    plainVisit 2 (.delete { queuedNotification with updateId := some "m" }),
    plainVisit 2 (.delete { queuedNotification with updateId := some "m" }),
    plainVisit 3 (.storeAll ⟨⟨1⟩⟩
      [queuedNotification, { queuedNotification with messageId := "n" }])]

def queuedKey : RowKey :=
  Place.rowKey (januaryTable.partition ⟨⟨1⟩⟩) (.queued 100 ⟨⟨2⟩⟩ (by decide))

theorem version_acknowledged_once_replaced :
    januaryEngine.store.messageRows januaryTable.table = .ok .empty ∧
    acks januaryTable queuedKey "m" januaryEngine replacedVisits = 1 ∧
    stores januaryTable queuedKey "m" januaryEngine replacedVisits = 1 ∧
    latest januaryTable queuedKey januaryEngine replacedVisits = some "n" ∧
    Guarded januaryTable queuedKey "m" januaryEngine replacedVisits := by
  have hempty : januaryEngine.store.messageRows januaryTable.table = .ok .empty := by decide
  have hguarded := version_acknowledged_once hempty replacedVisits queuedKey "m"
  exact ⟨hempty, by decide +kernel, by decide +kernel, by decide +kernel, hguarded⟩

end PushQueue.Mailbox
