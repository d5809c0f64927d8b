import Mathlib.Data.List.Induction
import PushQueue.Proofs.Mailbox.Rows
import PushQueue.Proofs.Sweep

/-!
The calls that write rows of a message table, as changes of what stands under one key. A row is put,
or an update makes it where there is none; after that updates change it, each its own part of it,
until a delete or a sweep takes it away. So a row goes back to what was put there last, and to the
updates since then.
-/

namespace PushQueue

inductive RowCall where
  | put (row : MessageRow)
  | putAll (rows : List MessageRow)
  | delete (key : RowKey) (updateId : Option String)
  | updateChannels (partition : String) (update : ChannelUpdate) (expiry : UInt64)
  | setReadPosition (partition : String) (position expiry : UInt64)
  | sweep (now : UInt64)

namespace RowCall

variable {name : String} {s : Store} {rows : MessageRows} {k : RowKey} {c : RowCall}
  {calls : List RowCall} {row : RowContent}

def perform (name : String) : RowCall → Store → Except StoreError Store
  | .put row, s => (Store.putRow name row s).map Prod.snd
  | .putAll rows, s => (Store.putRows name rows s).map Prod.snd
  | .delete key updateId, s => (Store.deleteRow name key updateId s).map Prod.snd
  | .updateChannels partition update expiry, s =>
    (Store.updateChannels name partition update expiry s).map Prod.snd
  | .setReadPosition partition position expiry, s =>
    (Store.setReadPosition name partition position expiry s).map Prod.snd
  | .sweep now, s => (Store.sweep name now s).map Prod.snd

def performAll (name : String) (calls : List RowCall) (s : Store) : Except StoreError Store :=
  calls.foldlM (fun s c => c.perform name s) s

def withChannels (update : ChannelUpdate) (expiry : UInt64) (row : RowContent) : RowContent :=
  { row with channels := some (update.apply (row.channels.getD .empty)), expiry }

def withPosition (position expiry : UInt64) (row : RowContent) : RowContent :=
  { row with readPosition := some position, expiry }

def written? (k : RowKey) : RowCall → Option RowContent
  | .put row => Mailbox.lastAt k [row]
  | .putAll rows => Mailbox.lastAt k rows
  | .delete .. | .updateChannels .. | .setReadPosition .. | .sweep _ => none

def edit? (k : RowKey) : RowCall → Option (RowContent → RowContent)
  | .updateChannels partition update expiry =>
    if RowKey.metadata partition = k then some (withChannels update expiry) else none
  | .setReadPosition partition position expiry =>
    if RowKey.metadata partition = k then some (withPosition position expiry) else none
  | .put _ | .putAll _ | .delete .. | .sweep _ => none

def removes (k : RowKey) : RowCall → RowContent → Bool
  | .delete key updateId, row => key = k && (updateId = none || updateId = row.updateId)
  | .sweep now, row => expiredBefore now row
  | .put _, _ | .putAll _, _ | .updateChannels .., _ | .setReadPosition .., _ => false

def leaves (k : RowKey) (c : RowCall) (held : Option RowContent) : Option RowContent :=
  match c.written? k, c.edit? k with
  | some row, _ => some row
  | none, some edit => some (edit (held.getD {}))
  | none, none => held.filter fun row => !c.removes k row

/-- What stands under a key after calls on a table without rows. -/
def held (k : RowKey) (calls : List RowCall) : Option RowContent :=
  calls.foldl (fun held c => c.leaves k held) none

theorem held_concat (k : RowKey) (calls : List RowCall) (c : RowCall) :
    held k (calls ++ [c]) = c.leaves k (held k calls) := by
  rw [held, List.foldl_append]
  rfl

section Steps

def Makes (name : String) (c : RowCall) (s : Store) (rows' : MessageRows) : Prop :=
  c.perform name s = .ok (s.setTable name (.messages rows'))

theorem makes_of_update {α : Type} {f : MessageRows → α × MessageRows}
    (hrows : s.messageRows name = .ok rows)
    (hc : c.perform name s = (Store.updateMessages name f s).map Prod.snd) :
    Makes name c s (f rows).2 := by
  rw [Makes, hc, Store.updateMessages_eq hrows]
  rfl

theorem leaves_of_written (hedit : c.edit? k = none) (hremoves : ∀ row, c.removes k row = false)
    (old : Option RowContent) : c.leaves k old = (c.written? k).or old := by
  cases hwritten : c.written? k with
  | some row => rw [leaves, hwritten, Option.some_or]
  | none => cases old <;> simp [leaves, hwritten, hedit, hremoves, Option.filter]

theorem leaves_of_edit {edit : RowContent → RowContent} {p : String}
    (hwritten : c.written? k = none)
    (hedit : c.edit? k = if RowKey.metadata p = k then some edit else none)
    (hremoves : ∀ row, c.removes k row = false) (old : Option RowContent) :
    c.leaves k old = if RowKey.metadata p = k then some (edit (old.getD {})) else old := by
  by_cases hk : RowKey.metadata p = k
  · simp only [leaves, hwritten, hedit, if_pos hk]
  · rw [if_neg hk] at hedit ⊢
    rw [leaves_of_written hedit hremoves, hwritten, Option.none_or]

/-- Unless the name of the table shadows the rows that are offered, a call succeeds on a message
table and does to each of its rows what it leaves of it. -/
theorem exists_makes (hrows : s.messageRows name = .ok rows)
    (hname : Store.offersShadowed name = false) (c : RowCall) :
    ∃ rows', Makes name c s rows' ∧ ∀ k, rows'.get? k = c.leaves k (rows.get? k) := by
  cases c with
  | put row =>
    refine ⟨_, makes_of_update hrows rfl, fun k => ?_⟩
    rw [leaves_of_written rfl fun _ => rfl]
    exact Mailbox.get?_insertAll rows [row] k
  | putAll written =>
    refine ⟨Mailbox.insertAll rows written, ?_, fun k => ?_⟩
    · rw [Makes, perform, Store.putRows_eq hrows]
      rfl
    · rw [leaves_of_written rfl fun _ => rfl]
      exact Mailbox.get?_insertAll rows written k
  | delete key updateId =>
    refine ⟨_, makes_of_update hrows rfl, fun k => ?_⟩
    refine (Mailbox.get?_deleted rows key k updateId).trans ?_
    cases rows.get? k with
    | none => simp [leaves, written?, edit?]
    | some row =>
      have hremoves : (delete key updateId).removes k row = true ↔
          key = k ∧ (updateId = none ∨ updateId = row.updateId) := by simp [removes]
      simp only [Option.bind_some, ← hremoves, leaves, written?, edit?, Option.filter_some]
      cases (delete key updateId).removes k row <;> rfl
  | updateChannels p update expiry =>
    let before := Mailbox.keptChannels (rows.get? (RowKey.metadata p))
    let write (row : RowContent) := { row with channels := some (update.apply before), expiry }
    have hmakes : Makes name (.updateChannels p update expiry) s
        (Store.upsert name (RowKey.metadata p) (write {}) write rows) := by
      rw [Makes, perform, Store.updateChannels, Store.updateMessages_eq hrows]
      rfl
    refine ⟨_, hmakes, fun k => ?_⟩
    rw [leaves_of_edit rfl rfl fun _ => rfl, Mailbox.get?_upsert_eq, Mailbox.upserted_eq hname]
    by_cases hk : RowKey.metadata p = k
    · subst hk
      rw [if_pos rfl, if_pos rfl]
      cases hget : rows.get? (RowKey.metadata p) <;>
        simp [write, before, withChannels, Mailbox.keptChannels, hget]
    · rw [if_neg hk, if_neg hk]
  | setReadPosition p position expiry =>
    have hmakes : Makes name (.setReadPosition p position expiry) s
        (Store.upsert name (RowKey.metadata p) (withPosition position expiry {})
          (withPosition position expiry) rows) := by
      rw [Makes, perform, Store.setReadPosition, Store.updateMessages_eq hrows]
      rfl
    refine ⟨_, hmakes, fun k => ?_⟩
    rw [leaves_of_edit rfl rfl fun _ => rfl, Mailbox.get?_upsert_eq, Mailbox.upserted_eq hname]
  | sweep now =>
    refine ⟨_, makes_of_update hrows rfl, fun k => ?_⟩
    exact Admin.get?_kept now rows k

theorem exists_rows_performAll (hrows : s.messageRows name = .ok .empty)
    (hname : Store.offersShadowed name = false) (calls : List RowCall) :
    ∃ rows', performAll name calls s = .ok (s.setTable name (.messages rows')) ∧
      ∀ k, rows'.get? k = held k calls := by
  have htable := Store.messageRows_eq_ok_iff.1 hrows
  induction calls using List.reverseRecOn with
  | nil => exact ⟨.empty, congrArg Except.ok (Store.setTable_of_table htable).symm, fun _ => rfl⟩
  | append_singleton calls c ih =>
    obtain ⟨rows₁, hperformed, hheld⟩ := ih
    have hrows₁ := Store.messageRows_setTable (Store.isValid_of_table htable) s rows₁
    obtain ⟨rows₂, hmakes, hleaves⟩ := exists_makes hrows₁ hname c
    rw [Makes, Store.setTable_setTable] at hmakes
    refine ⟨rows₂, ?_, fun k => ?_⟩
    · rw [performAll] at hperformed ⊢
      rw [List.foldlM_append, hperformed]
      exact (bind_pure (c.perform name (s.setTable name (.messages rows₁)))).trans hmakes
    · rw [hleaves, hheld, held_concat]

end Steps

section Origins

/-- A row under a key goes back to `base`: that was put there, or an update made it where there was
no row, and the calls since then have kept a row there and changed it by updates alone. -/
def GoesBackTo (k : RowKey) (calls : List RowCall) (row base : RowContent) : Prop :=
  ∃ before c later, calls = before ++ c :: later ∧
    (c.written? k = some base ∨
      c.written? k = none ∧ held k before = none ∧ ∃ edit, c.edit? k = some edit ∧ base = edit {}) ∧
    (∀ since, since <+: later → (held k (before ++ c :: since)).isSome) ∧
    (∀ c' ∈ later, c'.written? k = none) ∧
    row = (later.filterMap (edit? k)).foldl (fun row edit => edit row) base

theorem goesBackTo_concat (h : held k (calls ++ [c]) = some row)
    (hbase : c.written? k = some row ∨
      c.written? k = none ∧ held k calls = none ∧ ∃ edit, c.edit? k = some edit ∧ row = edit {}) :
    GoesBackTo k (calls ++ [c]) row row := by
  refine ⟨calls, c, [], rfl, hbase, fun since hsince => ?_, nofun, rfl⟩
  rw [List.prefix_nil.1 hsince, h]
  rfl

theorem GoesBackTo.concat {row' base : RowContent} (h : GoesBackTo k calls row base)
    (hheld : held k (calls ++ [c]) = some row') (hwritten : c.written? k = none)
    (hrow : row' = (c.edit? k).elim row fun edit => edit row) :
    GoesBackTo k (calls ++ [c]) row' base := by
  obtain ⟨before, b, later, rfl, hbase, hsince, hlater, rfl⟩ := h
  refine ⟨before, b, later ++ [c], by simp, hbase, fun since hsub => ?_, ?_, ?_⟩
  · rcases List.prefix_concat_iff.1 hsub with rfl | hsub
    · rw [List.append_assoc, List.cons_append] at hheld
      rw [hheld]
      rfl
    · exact hsince since hsub
  · exact List.forall_mem_append.2 ⟨hlater, List.forall_mem_singleton.2 hwritten⟩
  · rw [List.filterMap_append, List.foldl_append, hrow]
    cases hedit : c.edit? k <;> simp [hedit]

theorem exists_goesBackTo (h : held k calls = some row) : ∃ base, GoesBackTo k calls row base := by
  induction calls using List.reverseRecOn generalizing row with
  | nil => cases h
  | append_singleton calls c ih =>
    have hleaves := (held_concat k calls c).symm.trans h
    cases hwritten : c.written? k with
    | some base =>
      have heq : some base = some row := by simpa only [leaves, hwritten] using hleaves
      exact ⟨row, goesBackTo_concat h (.inl (hwritten.trans heq))⟩
    | none =>
      cases hedit : c.edit? k with
      | some edit =>
        have heq : edit ((held k calls).getD {}) = row :=
          Option.some.inj (by simpa only [leaves, hwritten, hedit] using hleaves)
        cases hheld : held k calls with
        | none =>
          rw [hheld] at heq
          exact ⟨row, goesBackTo_concat h (.inr ⟨hwritten, hheld, edit, hedit, heq.symm⟩)⟩
        | some old =>
          rw [hheld] at heq
          obtain ⟨base, hbase⟩ := ih hheld
          exact ⟨base, hbase.concat h hwritten (by rw [hedit]; exact heq.symm)⟩
      | none =>
        simp only [leaves, hwritten, hedit, Option.filter_eq_some_iff] at hleaves
        obtain ⟨base, hbase⟩ := ih hleaves.1
        exact ⟨base, hbase.concat h hwritten (by rw [hedit]; rfl)⟩

theorem GoesBackTo.held_eq {base : RowContent} (h : GoesBackTo k calls row base) :
    held k calls = some row := by
  obtain ⟨before, b, later, rfl, hbase, hsince, hlater, rfl⟩ := h
  induction later using List.reverseRecOn with
  | nil =>
    rw [held_concat]
    rcases hbase with hwritten | ⟨hwritten, hnone, edit, hedit, rfl⟩
    · simp only [leaves, hwritten, List.filterMap_nil, List.foldl_nil]
    · simp only [leaves, hwritten, hedit, hnone, Option.getD_none, List.filterMap_nil,
        List.foldl_nil]
  | append_singleton later c ih =>
    have hheld := ih (fun since hsub => hsince since (hsub.trans (List.prefix_append _ _)))
      fun c' hc' => hlater c' (List.mem_append_left _ hc')
    have hsome := hsince (later ++ [c]) (List.prefix_refl _)
    have hwritten := hlater c (List.mem_append_right _ List.mem_cons_self)
    rw [← List.cons_append, ← List.append_assoc, held_concat, hheld] at hsome ⊢
    rw [List.filterMap_append, List.foldl_append]
    cases hedit : c.edit? k with
    | some edit => simp [leaves, hwritten, hedit]
    | none =>
      simp only [leaves, hwritten, hedit] at hsome ⊢
      obtain ⟨kept, hkept⟩ := Option.isSome_iff_exists.1 hsome
      rw [hkept, ← (Option.filter_eq_some_iff.1 hkept).1]
      simp [hedit]

theorem held_eq_some_iff : held k calls = some row ↔ ∃ base, GoesBackTo k calls row base :=
  ⟨exists_goesBackTo, fun ⟨_, h⟩ => h.held_eq⟩

/-- The parts of a row that updates leave alone. -/
structure SameMessage (row row' : RowContent) : Prop where
  headers : row'.headers = row.headers
  data : row'.data = row.data
  ttl : row'.ttl = row.ttl
  timestamp : row'.timestamp = row.timestamp
  updateId : row'.updateId = row.updateId

theorem SameMessage.trans {row₁ row₂ row₃ : RowContent} (h : SameMessage row₁ row₂)
    (h' : SameMessage row₂ row₃) : SameMessage row₁ row₃ where
  headers := h'.headers.trans h.headers
  data := h'.data.trans h.data
  ttl := h'.ttl.trans h.ttl
  timestamp := h'.timestamp.trans h.timestamp
  updateId := h'.updateId.trans h.updateId

theorem sameMessage_edit {edit : RowContent → RowContent} (h : c.edit? k = some edit)
    (row : RowContent) : SameMessage row (edit row) := by
  cases c with
  | updateChannels p update expiry =>
    obtain ⟨-, hedit⟩ := Option.ite_none_right_eq_some.1 h
    rw [← Option.some.inj hedit]
    exact ⟨rfl, rfl, rfl, rfl, rfl⟩
  | setReadPosition p position expiry =>
    obtain ⟨-, hedit⟩ := Option.ite_none_right_eq_some.1 h
    rw [← Option.some.inj hedit]
    exact ⟨rfl, rfl, rfl, rfl, rfl⟩
  | put | putAll | delete | sweep => cases h

theorem GoesBackTo.sameMessage {base : RowContent} (h : GoesBackTo k calls row base) :
    SameMessage base row := by
  obtain ⟨-, -, later, -, -, -, -, rfl⟩ := h
  induction later generalizing base with
  | nil => exact ⟨rfl, rfl, rfl, rfl, rfl⟩
  | cons c later ih =>
    cases hedit : c.edit? k with
    | none =>
      rw [List.filterMap_cons_none hedit]
      exact ih
    | some edit =>
      rw [List.filterMap_cons_some hedit]
      exact (sameMessage_edit hedit base).trans ih

end Origins

end RowCall

end PushQueue
