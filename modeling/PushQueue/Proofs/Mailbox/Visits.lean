import PushQueue.Proofs.Mailbox.Rows
import PushQueue.Proofs.Runs

/-!
Visits of clients that share a table. Each client has key material of its own and cuts lifetimes in
its own way. The row under a key comes to what the admitted visits make of it one after the other,
whatever else the table holds.
-/

namespace PushQueue

namespace TableHandle

@[simp] theorem table_withMaxTtl (t : TableHandle) (maxTtl : UInt64) :
    (t.withMaxTtl maxTtl).table = t.table := by
  unfold withMaxTtl
  split <;> rfl

@[simp] theorem partition_withMaxTtl (t : TableHandle) (maxTtl : UInt64) (u : SubscriberId) :
    (t.withMaxTtl maxTtl).partition u = t.partition u := by
  unfold withMaxTtl
  split <;> rfl

end TableHandle

namespace Mailbox

structure Visit where
  pseudonym : Pseudonym
  maxTtl : UInt64
  request : Request

namespace Visit

def handle (t : TableHandle) (v : Visit) : TableHandle :=
  (t.withPseudonym v.pseudonym).withMaxTtl v.maxTtl

def serve (t : TableHandle) (v : Visit) (e : Engine) : Except StoreError Unit × Engine :=
  v.request.serve (v.handle t) e

def names (t : TableHandle) (k : RowKey) (v : Visit) : Bool :=
  v.request.call.names (v.handle t) v.request.now k

def onRow (t : TableHandle) (k : RowKey) (row : Option RowContent) (v : Visit) :
    Option RowContent :=
  if v.request.isAdmitted then v.request.call.onRow (v.handle t) v.request.now k row else row

end Visit

def visitAll (t : TableHandle) (e : Engine) (visits : List Visit) : Engine :=
  e.after (fun e v => (v.serve t e).2) visits

def acceptedVisits (t : TableHandle) (e : Engine) (visits : List Visit) : List Visit :=
  e.accepted (Visit.serve t) visits

variable {t : TableHandle} {k : RowKey} {v : Visit} {e : Engine} {rows : MessageRows}
  {row : Option RowContent}

namespace Visit

@[simp] theorem table_handle (t : TableHandle) (v : Visit) : (v.handle t).table = t.table :=
  (t.withPseudonym v.pseudonym).table_withMaxTtl v.maxTtl

theorem onRow_of_not_names (h : v.names t k = false) (row : Option RowContent) :
    v.onRow t k row = row := by
  unfold onRow
  rw [Call.onRow_of_not_names h, ite_self]

theorem serve_spec (hrows : e.store.messageRows t.table = .ok rows) (v : Visit) :
    (v.serve t e).1.isOk = v.request.isAdmitted ∧
      ∃ rows', (v.serve t e).2.store.messageRows t.table = .ok rows' ∧
        ∀ k, rows'.get? k = v.onRow t k (rows.get? k) := by
  unfold onRow serve
  cases h : v.request.isAdmitted with
  | true =>
    rw [← v.table_handle t] at hrows ⊢
    obtain ⟨e', rows', hserve, hrows', -⟩ := Request.serve_admitted hrows h
    obtain ⟨rows₁, hrows₁, hrow⟩ := Call.onRow_of_gives ⟨e', hserve, rfl⟩ hrows
    rw [hserve]
    exact ⟨rfl, rows₁, hrows₁, hrow⟩
  | false =>
    obtain ⟨error, e', hserve, hstore⟩ := Request.serve_refused (t := v.handle t) e h
    rw [hserve]
    exact ⟨rfl, rows, hstore ▸ hrows, fun _ => rfl⟩

end Visit

theorem acceptedVisits_eq_filter (htable : HasTable t e) (visits : List Visit) :
    acceptedVisits t e visits = visits.filter fun v => v.request.isAdmitted := by
  refine Engine.accepted_eq_filter htable (fun v e htable => ?_) visits
  obtain ⟨rows, hrows⟩ := htable
  obtain ⟨hanswer, rows', hrows', -⟩ := v.serve_spec hrows
  exact ⟨hanswer, rows', hrows'⟩

theorem exists_rows_visitAll (hrows : e.store.messageRows t.table = .ok rows)
    (visits : List Visit) :
    ∃ rows', (visitAll t e visits).store.messageRows t.table = .ok rows' ∧
      ∀ k, rows'.get? k = visits.foldl (Visit.onRow t k) (rows.get? k) := by
  -- The model is the table as a function of its keys, which every visit changes one by one.
  let Shows (e : Engine) (row : RowKey → Option RowContent) : Prop :=
    ∃ rows, e.store.messageRows t.table = .ok rows ∧ ∀ k, rows.get? k = row k
  have hshows : Shows (visitAll t e visits)
      (visits.foldl (fun row v k => v.onRow t k (row k)) rows.get?) := by
    refine Engine.follows (R := Shows) ⟨rows, hrows, fun _ => rfl⟩ fun v _ e row hshows => ?_
    obtain ⟨rows, hrows, hrow⟩ := hshows
    obtain ⟨-, rows', hrows', hrow'⟩ := v.serve_spec hrows
    exact ⟨rows', hrows', fun k => by rw [hrow', hrow]⟩
  obtain ⟨rows', hrows', hrow'⟩ := hshows
  refine ⟨rows', hrows', fun k => (hrow' k).trans ?_⟩
  exact (List.foldl_hom (fun row : RowKey → Option RowContent => row k) fun _ _ => rfl).symm

end Mailbox

end PushQueue
