import Mathlib.Data.Option.Basic
import PushQueue.Proofs.Mailbox.Refinement
import PushQueue.Proofs.Mailbox.Rows
import PushQueue.Proofs.Services

/-!
Isolation of subscribers. A service leaves the rows of every partition but its subscriber's as they
are, and it answers, succeeds and writes according to the rows of its subscriber alone. So what one
subscriber does is neither seen nor felt by another whose partition differs.
-/

namespace PushQueue

namespace SortedMap

variable {κ ν : Type} [Ord κ] [DecidableEq κ]

def AgreesOn (Q : κ → Prop) (m₁ m₂ : SortedMap κ ν) : Prop := ∀ k, Q k → m₁.get? k = m₂.get? k

variable [Std.TransOrd κ] [Std.LawfulEqOrd κ] {Q : κ → Prop} {m m₁ m₂ : SortedMap κ ν} {key : κ}

theorem AgreesOn.insert (h : AgreesOn Q m₁ m₂) (key : κ) (v : ν) :
    AgreesOn Q (m₁.insert key v) (m₂.insert key v) := by
  intro k hk
  rw [get?_insert, get?_insert, h k hk]

theorem AgreesOn.erase (h : AgreesOn Q m₁ m₂) (key : κ) :
    AgreesOn Q (m₁.erase key) (m₂.erase key) := by
  intro k hk
  rw [get?_erase, get?_erase, h k hk]

theorem AgreesOn.upsert (h : AgreesOn Q m₁ m₂) (hkey : Q key) (name : String) (fresh : ν)
    (merge : ν → ν) :
    AgreesOn Q (Store.upsert name key fresh merge m₁) (Store.upsert name key fresh merge m₂) := by
  intro k hk
  rw [Store.get?_upsert, Store.get?_upsert, h key hkey, h k hk]

theorem agreesOn_insert (hkey : ¬ Q key) (m : SortedMap κ ν) (v : ν) :
    AgreesOn Q m (m.insert key v) := by
  intro k hk
  have hne : key ≠ k := fun heq => hkey (heq ▸ hk)
  rw [get?_insert, if_neg hne]

theorem agreesOn_upsert (hkey : ¬ Q key) (m : SortedMap κ ν) (name : String) (fresh : ν)
    (merge : ν → ν) : AgreesOn Q m (Store.upsert name key fresh merge m) := by
  intro k hk
  have hne : key ≠ k := fun heq => hkey (heq ▸ hk)
  rw [Store.get?_upsert, if_neg hne]

end SortedMap

inductive Table.AgreesOn (P : String → Prop) : Table → Table → Prop
  | messages {rows₁ rows₂ : MessageRows} : rows₁.AgreesOn (fun k => P k.partition) rows₂ →
    AgreesOn P (.messages rows₁) (.messages rows₂)
  | routers {rows₁ rows₂ : RouterRows} : rows₁.AgreesOn P rows₂ →
    AgreesOn P (.routers rows₁) (.routers rows₂)

theorem Table.agreesOn_refl (P : String → Prop) (table : Table) : table.AgreesOn P table := by
  cases table with
  | messages => exact .messages fun _ _ => rfl
  | routers => exact .routers fun _ _ => rfl

theorem Table.AgreesOn.trans {P : String → Prop} {table₁ table₂ table₃ : Table}
    (h₁ : AgreesOn P table₁ table₂) (h₂ : AgreesOn P table₂ table₃) : AgreesOn P table₁ table₃ := by
  cases h₁ with
  | messages h₁ =>
    cases h₂ with
    | messages h₂ => exact .messages fun k hk => (h₁ k hk).trans (h₂ k hk)
  | routers h₁ =>
    cases h₂ with
    | routers h₂ => exact .routers fun p hp => (h₁ p hp).trans (h₂ p hp)

namespace Store

/-- Stores with the same tables, which hold the same rows in some partitions. -/
def AgreesOn (P : String → Prop) (s₁ s₂ : Store) : Prop :=
  ∀ name, Option.Rel (Table.AgreesOn P) (s₁.tables.get? name) (s₂.tables.get? name)

variable {P : String → Prop} {s s' s₁ s₂ s₃ : Store} {name p : String} {α : Type}

section Equivalence

theorem AgreesOn.refl (P : String → Prop) (s : Store) : s.AgreesOn P s := by
  intro name
  cases s.tables.get? name with
  | none => exact .none
  | some table => exact .some (table.agreesOn_refl P)

theorem AgreesOn.trans (h₁ : AgreesOn P s₁ s₂) (h₂ : AgreesOn P s₂ s₃) : AgreesOn P s₁ s₃ := by
  intro name
  have htables₁ := h₁ name
  have htables₂ := h₂ name
  revert htables₁ htables₂
  generalize s₁.tables.get? name = found₁, s₂.tables.get? name = found₂,
    s₃.tables.get? name = found₃
  rintro (htable₁ | _) htables₂
  · cases htables₂ with
    | some htable₂ => exact .some (htable₁.trans htable₂)
  · exact htables₂

theorem AgreesOn.mono {Q : String → Prop} (h : AgreesOn P s₁ s₂) (hQ : ∀ p, Q p → P p) :
    AgreesOn Q s₁ s₂ := by
  intro name
  have htables := h name
  revert htables
  generalize s₁.tables.get? name = found₁, s₂.tables.get? name = found₂
  rintro ((hrows | hrows) | _)
  · exact .some (.messages fun k hk => hrows k (hQ _ hk))
  · exact .some (.routers fun p hp => hrows p (hQ _ hp))
  · exact .none

end Equivalence

section Tables

theorem AgreesOn.setTable {table₁ table₂ : Table} (h : AgreesOn P s₁ s₂)
    (htable : table₁.AgreesOn P table₂) (name : String) :
    AgreesOn P (s₁.setTable name table₁) (s₂.setTable name table₂) := by
  intro other
  simp only [Store.setTable, SortedMap.get?_insert]
  by_cases hname : name = other
  · simp only [if_pos hname]
    exact .some htable
  · simp only [if_neg hname]
    exact h other

theorem agreesOn_setTable {table table' : Table} (h : s.table name = .ok table)
    (htable : table.AgreesOn P table') : s.AgreesOn P (s.setTable name table') := by
  have hset := (AgreesOn.refl P s).setTable htable name
  rwa [setTable_of_table h] at hset

theorem AgreesOn.table (h : AgreesOn P s₁ s₂) (name : String) :
    (∃ error, s₁.table name = .error error ∧ s₂.table name = .error error) ∨
      ∃ table₁ table₂, s₁.table name = .ok table₁ ∧ s₂.table name = .ok table₂ ∧
        table₁.AgreesOn P table₂ := by
  unfold Store.table
  cases checkName name with
  | error error => exact .inl ⟨error, rfl, rfl⟩
  | ok =>
    have hname := h name
    revert hname
    generalize s₁.tables.get? name = found₁, s₂.tables.get? name = found₂
    rintro (htable | _)
    · exact .inr ⟨_, _, rfl, rfl, htable⟩
    · exact .inl ⟨_, rfl, rfl⟩

theorem AgreesOn.messageRows (h : AgreesOn P s₁ s₂) (name : String) :
    (∃ error, s₁.messageRows name = .error error ∧ s₂.messageRows name = .error error) ∨
      ∃ rows₁ rows₂, s₁.messageRows name = .ok rows₁ ∧ s₂.messageRows name = .ok rows₂ ∧
        rows₁.AgreesOn (fun k => P k.partition) rows₂ := by
  unfold Store.messageRows
  rcases h.table name with ⟨error, h₁, h₂⟩ | ⟨_, _, h₁, h₂, htable⟩
  · rw [h₁, h₂]
    exact .inl ⟨error, rfl, rfl⟩
  · rw [h₁, h₂]
    cases htable with
    | messages hrows => exact .inr ⟨_, _, rfl, rfl, hrows⟩
    | routers => exact .inl ⟨_, rfl, rfl⟩

theorem AgreesOn.routerRows (h : AgreesOn P s₁ s₂) (name : String) :
    (∃ error, s₁.routerRows name = .error error ∧ s₂.routerRows name = .error error) ∨
      ∃ rows₁ rows₂, s₁.routerRows name = .ok rows₁ ∧ s₂.routerRows name = .ok rows₂ ∧
        rows₁.AgreesOn P rows₂ := by
  unfold Store.routerRows
  rcases h.table name with ⟨error, h₁, h₂⟩ | ⟨_, _, h₁, h₂, htable⟩
  · rw [h₁, h₂]
    exact .inl ⟨error, rfl, rfl⟩
  · rw [h₁, h₂]
    cases htable with
    | messages => exact .inl ⟨_, rfl, rfl⟩
    | routers hrows => exact .inr ⟨_, _, rfl, rfl, hrows⟩

end Tables

section Calls

open PushQueue.Action (Matches)

theorem matches_readMessages (h : AgreesOn P s₁ s₂) (name : String) {f : MessageRows → α}
    (hf : ∀ rows₁ rows₂ : MessageRows, rows₁.AgreesOn (fun k => P k.partition) rows₂ →
      f rows₁ = f rows₂) :
    Matches (AgreesOn P) (((s₁.messageRows name).map f).map fun a => (a, s₁))
      (((s₂.messageRows name).map f).map fun a => (a, s₂)) := by
  rcases h.messageRows name with ⟨error, h₁, h₂⟩ | ⟨rows₁, rows₂, h₁, h₂, hrows⟩
  · rw [h₁, h₂]
    exact .error error
  · rw [h₁, h₂]
    simp only [Except.map, hf rows₁ rows₂ hrows]
    exact .ok _ h

theorem matches_updateMessages (h : AgreesOn P s₁ s₂) (name : String)
    {f : MessageRows → α × MessageRows}
    (hf : ∀ rows₁ rows₂ : MessageRows, rows₁.AgreesOn (fun k => P k.partition) rows₂ →
      (f rows₁).1 = (f rows₂).1 ∧ (f rows₁).2.AgreesOn (fun k => P k.partition) (f rows₂).2) :
    Matches (AgreesOn P) (updateMessages name f s₁) (updateMessages name f s₂) := by
  unfold updateMessages
  rcases h.messageRows name with ⟨error, h₁, h₂⟩ | ⟨rows₁, rows₂, h₁, h₂, hrows⟩
  · rw [h₁, h₂]
    exact .error error
  · rw [h₁, h₂]
    obtain ⟨hanswer, hafter⟩ := hf rows₁ rows₂ hrows
    simp only [Except.map, hanswer]
    exact .ok _ (h.setTable (.messages hafter) name)

theorem matches_readRouters (h : AgreesOn P s₁ s₂) (name : String) {f : RouterRows → α}
    (hf : ∀ rows₁ rows₂ : RouterRows, rows₁.AgreesOn P rows₂ → f rows₁ = f rows₂) :
    Matches (AgreesOn P) (((s₁.routerRows name).map f).map fun a => (a, s₁))
      (((s₂.routerRows name).map f).map fun a => (a, s₂)) := by
  rcases h.routerRows name with ⟨error, h₁, h₂⟩ | ⟨rows₁, rows₂, h₁, h₂, hrows⟩
  · rw [h₁, h₂]
    exact .error error
  · rw [h₁, h₂]
    simp only [Except.map, hf rows₁ rows₂ hrows]
    exact .ok _ h

theorem matches_updateRouters (h : AgreesOn P s₁ s₂) (name : String)
    {f : RouterRows → α × RouterRows}
    (hf : ∀ rows₁ rows₂ : RouterRows, rows₁.AgreesOn P rows₂ →
      (f rows₁).1 = (f rows₂).1 ∧ (f rows₁).2.AgreesOn P (f rows₂).2) :
    Matches (AgreesOn P) (updateRouters name f s₁) (updateRouters name f s₂) := by
  unfold updateRouters
  rcases h.routerRows name with ⟨error, h₁, h₂⟩ | ⟨rows₁, rows₂, h₁, h₂, hrows⟩
  · rw [h₁, h₂]
    exact .error error
  · rw [h₁, h₂]
    obtain ⟨hanswer, hafter⟩ := hf rows₁ rows₂ hrows
    simp only [Except.map, hanswer]
    exact .ok _ (h.setTable (.routers hafter) name)

theorem agreesOn_updateMessages {f : MessageRows → α × MessageRows} {a : α}
    (h : updateMessages name f s = .ok (a, s'))
    (hf : ∀ rows : MessageRows, rows.AgreesOn (fun k => P k.partition) (f rows).2) :
    AgreesOn P s s' := by
  obtain ⟨rows, hrows, -, rfl⟩ := exists_rows_of_updateMessages h
  exact agreesOn_setTable (messageRows_eq_ok_iff.1 hrows) (.messages (hf rows))

theorem agreesOn_updateRouters {f : RouterRows → α × RouterRows} {a : α}
    (h : updateRouters name f s = .ok (a, s'))
    (hf : ∀ rows : RouterRows, rows.AgreesOn P (f rows).2) :
    AgreesOn P s s' := by
  obtain ⟨rows, hrows, -, rfl⟩ := exists_rows_of_updateRouters h
  exact agreesOn_setTable (routerRows_eq_ok_iff.1 hrows) (.routers (hf rows))

theorem matches_putRows (h : AgreesOn P s₁ s₂) (name : String) (written : List MessageRow) :
    Matches (AgreesOn P) (putRows name written s₁) (putRows name written s₂) := by
  unfold putRows
  split
  · cases checkName name with
    | error error => exact .error error
    | ok => exact .ok _ h
  · refine matches_updateMessages h name fun rows₁ rows₂ hrows => ⟨rfl, fun k hk => ?_⟩
    exact (Mailbox.get?_insertAll rows₁ written k).trans
      (hrows k hk ▸ (Mailbox.get?_insertAll rows₂ written k).symm)

theorem agreesOn_putRows {written : List MessageRow}
    (hwritten : ∀ row ∈ written, ¬ P row.key.partition)
    (h : putRows name written s = .ok ((), s')) : AgreesOn P s s' := by
  unfold putRows at h
  split at h
  · obtain ⟨_, -, heq⟩ := map_eq_ok_iff.1 h
    obtain ⟨-, rfl⟩ := Prod.mk.inj heq
    exact .refl P s
  · refine agreesOn_updateMessages h fun rows k hk => ?_
    have hlast : Mailbox.lastAt k written = none := by
      rw [Option.eq_none_iff_forall_ne_some]
      exact fun content hlast => hwritten _ (Mailbox.mem_of_lastAt hlast) hk
    refine ((Mailbox.get?_insertAll rows written k).trans ?_).symm
    rw [hlast, Option.none_or]

theorem select_eq {rows₁ rows₂ : MessageRows} (hp : P p)
    (h : rows₁.AgreesOn (fun k => P k.partition) rows₂) (range : KeyRange) :
    select rows₁ p range = select rows₂ p range := by
  unfold select
  congr 2
  apply SortedMap.ext_get?
  intro k
  rw [SortedMap.get?_filter, SortedMap.get?_filter]
  by_cases hk : k.partition = p
  · have hP : P k.partition := hk ▸ hp
    rw [h k hP]
  · cases rows₁.get? k <;> cases rows₂.get? k <;> simp [Option.filter, hk]

theorem size_filter_lt_iff (rows : MessageRows) (p : String) :
    (rows.filter fun k _ => decide (k.partition ≠ p)).size < rows.size ↔
      ∃ k content, rows.get? k = some content ∧ k.partition = p := by
  refine List.length_filter_lt_length_iff_exists.trans ?_
  constructor
  · rintro ⟨⟨k, content⟩, hmem, hk⟩
    exact ⟨k, content, (SortedMap.mem_entries_iff rows k content).1 hmem, by simpa using hk⟩
  · rintro ⟨k, content, hget, hk⟩
    exact ⟨(k, content), (SortedMap.mem_entries_iff rows k content).2 hget, by simpa using hk⟩

theorem matches_deletePartition (h : AgreesOn P s₁ s₂) (hp : P p) (name : String) :
    Matches (AgreesOn P) (deletePartition name p s₁) (deletePartition name p s₂) := by
  unfold deletePartition
  rcases h.table name with ⟨error, h₁, h₂⟩ | ⟨_, _, h₁, h₂, htable⟩
  · rw [h₁, h₂]
    exact .error error
  · rw [h₁, h₂]
    cases htable with
    | @messages rows₁ rows₂ hrows =>
      have hfound : ((rows₁.filter fun k _ => decide (k.partition ≠ p)).size < rows₁.size) =
          ((rows₂.filter fun k _ => decide (k.partition ≠ p)).size < rows₂.size) := by
        rw [size_filter_lt_iff, size_filter_lt_iff]
        refine propext (exists₂_congr fun k content => and_congr_left fun hk => ?_)
        have hP : P k.partition := hk ▸ hp
        rw [hrows k hP]
      have hkept : (rows₁.filter fun k _ => decide (k.partition ≠ p)).AgreesOn
          (fun k => P k.partition) (rows₂.filter fun k _ => decide (k.partition ≠ p)) := by
        intro k hk
        rw [SortedMap.get?_filter, SortedMap.get?_filter, hrows k hk]
      simp only [Except.map, hfound]
      exact .ok _ (h.setTable (.messages hkept) name)
    | @routers rows₁ rows₂ hrows =>
      simp only [Except.map, SortedMap.contains, hrows p hp]
      exact .ok _ (h.setTable (.routers (hrows.erase p)) name)

theorem agreesOn_deletePartition {found : Bool} (hp : ¬ P p)
    (h : deletePartition name p s = .ok (found, s')) : AgreesOn P s s' := by
  obtain ⟨table, htable, heq⟩ := map_eq_ok_iff.1 h
  cases table with
  | messages rows =>
    obtain ⟨-, rfl⟩ := Prod.mk.inj heq
    refine agreesOn_setTable htable (.messages fun k hk => ?_)
    have hne : k.partition ≠ p := fun hkp => hp (hkp ▸ hk)
    rw [SortedMap.get?_filter]
    cases rows.get? k <;> simp [Option.filter, hne]
  | routers rows =>
    obtain ⟨-, rfl⟩ := Prod.mk.inj heq
    refine agreesOn_setTable htable (.routers fun q hq => ?_)
    have hne : p ≠ q := fun hpq => hp (hpq ▸ hq)
    rw [SortedMap.get?_erase, if_neg hne]

end Calls

end Store

namespace EngineCall

variable {owns : String → Prop} {α : Type} {f : Store → Except StoreError (α × Store)}
  {s s' s₁ s₂ : Store} {a : α}

open PushQueue.Action (Matches)

theorem matches_of_agreesOn (h : EngineCall owns f) (hs : s₁.AgreesOn owns s₂) :
    Matches (Store.AgreesOn owns) (f s₁) (f s₂) := by
  cases h with
  | getRow name hkey => exact Store.matches_readMessages hs name fun _ _ hrows => hrows _ hkey
  | query name range limit hp =>
    refine Store.matches_readMessages hs name fun rows₁ rows₂ hrows => ?_
    rw [Store.select_eq hp hrows]
  | putRow name hkey hlegible =>
    exact Store.matches_updateMessages hs name fun rows₁ rows₂ hrows => ⟨rfl, hrows.insert _ _⟩
  | putRows name hkeys hlegible => exact Store.matches_putRows hs name _
  | @deleteRow name key updateId hkey =>
    refine Store.matches_updateMessages hs name fun rows₁ rows₂ hrows => ?_
    simp only [hrows key hkey]
    split
    · exact ⟨rfl, hrows.erase _⟩
    · split
      · exact ⟨rfl, hrows.erase _⟩
      · exact ⟨rfl, hrows⟩
  | @updateChannels name p update expiry hp hids =>
    refine Store.matches_updateMessages hs name fun rows₁ rows₂ hrows => ?_
    simp only [hrows (RowKey.metadata p) hp]
    exact ⟨trivial, hrows.upsert hp _ _ _⟩
  | setReadPosition name expiry hp hle =>
    exact Store.matches_updateMessages hs name fun rows₁ rows₂ hrows =>
      ⟨rfl, hrows.upsert hp _ _ _⟩
  | getRouter name hp => exact Store.matches_readRouters hs name fun _ _ hrows => hrows _ hp
  | putRouter name new hp =>
    refine Store.matches_updateRouters hs name fun rows₁ rows₂ hrows => ?_
    simp only [hrows _ hp]
    split
    · exact ⟨rfl, hrows.upsert hp _ _ _⟩
    · exact ⟨rfl, hrows⟩
  | changeRouter name holds change hp =>
    refine Store.matches_updateRouters hs name fun rows₁ rows₂ hrows => ?_
    simp only [hrows _ hp]
    split
    · split
      · exact ⟨rfl, hrows.insert _ _⟩
      · exact ⟨rfl, hrows⟩
    · exact ⟨rfl, hrows⟩
  | deletePartition name hp => exact Store.matches_deletePartition hs hp name

theorem agreesOn_of_ok (h : EngineCall owns f) (hf : f s = .ok (a, s')) :
    s.AgreesOn (fun p => ¬ owns p) s' := by
  have hread {β : Type} {x : Except StoreError β} {g : β → α × Store}
      (hx : x.map g = .ok (a, s')) (hg : ∀ b, (g b).2 = s) : s.AgreesOn (fun p => ¬ owns p) s' := by
    obtain ⟨b, -, heq⟩ := map_eq_ok_iff.1 hx
    rw [show s' = s by rw [← hg b, heq]]
    exact .refl _ s
  cases h with
  | getRow name hkey => exact hread hf fun _ => rfl
  | query name range limit hp => exact hread hf fun _ => rfl
  | putRow name hkey hlegible =>
    exact Store.agreesOn_updateMessages hf fun rows => SortedMap.agreesOn_insert (· hkey) _ _
  | putRows name hkeys hlegible =>
    exact Store.agreesOn_putRows (fun row hrow => not_not.2 (hkeys row hrow)) hf
  | @deleteRow name key updateId hkey =>
    refine Store.agreesOn_updateMessages hf fun rows k hk => ?_
    have hne : key ≠ k := fun heq => hk (heq ▸ hkey)
    exact (Mailbox.get?_deleted_of_ne hne updateId).symm
  | updateChannels name expiry hp hids =>
    exact Store.agreesOn_updateMessages hf fun rows => SortedMap.agreesOn_upsert (· hp) _ _ _ _
  | setReadPosition name expiry hp hle =>
    exact Store.agreesOn_updateMessages hf fun rows => SortedMap.agreesOn_upsert (· hp) _ _ _ _
  | getRouter name hp => exact hread hf fun _ => rfl
  | putRouter name new hp =>
    refine Store.agreesOn_updateRouters hf fun rows => ?_
    split
    · exact SortedMap.agreesOn_upsert (· hp) _ _ _ _
    · exact fun _ _ => rfl
  | changeRouter name holds change hp =>
    refine Store.agreesOn_updateRouters hf fun rows => ?_
    split
    · split
      · exact SortedMap.agreesOn_insert (· hp) _ _
      · exact fun _ _ => rfl
    · exact fun _ _ => rfl
  | deletePartition name hp => exact Store.agreesOn_deletePartition (not_not.2 hp) hf

end EngineCall

theorem Mailbox.storeAll_rename (t : TableHandle) (now : Instant) (u : SubscriberId)
    (ns : List Notification) (name : Notification → SubscriberId) :
    storeAll t now u (ns.map fun n => { n with subscriber := name n }) = storeAll t now u ns := by
  unfold storeAll
  rw [List.mapM_map]
  simp only [Function.comp_def, rowFor_subscriber]

namespace Service

theorem agreesOn_run (s : Service) (e : Engine) :
    e.store.AgreesOn (fun p => ¬ s.Owns p) (Action.run s.action e).2.store :=
  s.built.steps (.refl _) .trans (fun hcall _ _ _ => hcall.agreesOn_of_ok) e

/-- What a service is for one subscriber, it is to no other: whether it succeeds or not, the rows of
everyone whose partition is another stay as they are in every table, and its outcome and the rows
of the subscriber after it are settled by the tables and the rows of the subscriber before it. A
batch is for its own subscriber, whomever its notifications name. -/
theorem subscribers_isolated (s : Service) :
    (∀ (t : TableHandle) (v : SubscriberId), ¬ s.Owns (t.partition v) → ∀ e : Engine,
      e.store.AgreesOn (· = t.partition v) (Action.run s.action e).2.store) ∧
    (∀ e₁ e₂ : Engine, e₁.fault = e₂.fault → e₁.store.AgreesOn s.Owns e₂.store →
      (Action.run s.action e₁).1 = (Action.run s.action e₂).1 ∧
        (Action.run s.action e₁).2.store.AgreesOn s.Owns (Action.run s.action e₂).2.store) ∧
    (∀ (t : TableHandle) (now : Instant) (u : SubscriberId) (ns : List Notification)
      (name : Notification → SubscriberId),
      Mailbox.storeAll t now u (ns.map fun n => { n with subscriber := name n }) =
        Mailbox.storeAll t now u ns) := by
  refine ⟨fun t v hv e => ?_, fun e₁ e₂ hfault hstore => ?_, Mailbox.storeAll_rename⟩
  · exact (s.agreesOn_run e).mono fun p hp => hp ▸ hv
  · obtain ⟨hresult, halike⟩ :=
      s.built.pairs (fun hcall _ _ => hcall.matches_of_agreesOn) ⟨hfault, hstore⟩
    exact ⟨hresult, halike.store⟩

open Mailbox

def strayBatch : Service :=
  .storeAll januaryTable ⟨5⟩ ⟨⟨1⟩⟩ [{ queuedNotification with subscriber := ⟨⟨9⟩⟩ }]

def sharedEngine : Engine :=
  (Action.run (Service.store januaryTable ⟨5⟩
    { queuedNotification with subscriber := ⟨⟨9⟩⟩ }).action januaryEngine).2

theorem owns_strayBatch_iff {p : String} :
    strayBatch.Owns p ↔ januaryTable.partition ⟨⟨1⟩⟩ = p := by
  simp [Owns, strayBatch, handles, subscriber]

theorem subscribers_isolated_stray :
    ¬ strayBatch.Owns (januaryTable.partition ⟨⟨9⟩⟩) ∧
    januaryEngine.fault = sharedEngine.fault ∧
    januaryEngine.store.AgreesOn strayBatch.Owns sharedEngine.store ∧
    sharedEngine.store.AgreesOn (· = januaryTable.partition ⟨⟨9⟩⟩)
      (Action.run strayBatch.action sharedEngine).2.store ∧
    (Action.run strayBatch.action januaryEngine).1 =
      (Action.run strayBatch.action sharedEngine).1 := by
  have hother : ¬ strayBatch.Owns (januaryTable.partition ⟨⟨9⟩⟩) := by
    rw [owns_strayBatch_iff, partition_eq_iff rfl]
    decide
  have hagrees : januaryEngine.store.AgreesOn strayBatch.Owns sharedEngine.store := by
    refine (agreesOn_run _ _).mono fun p hp => ?_
    rintro ⟨t, ht, hstored⟩
    obtain rfl : t = januaryTable := List.mem_singleton.1 ht
    exact hother (hstored ▸ hp)
  obtain ⟨hframe, hlocal, -⟩ := subscribers_isolated strayBatch
  exact ⟨hother, rfl, hagrees, hframe januaryTable ⟨⟨9⟩⟩ hother sharedEngine,
    (hlocal januaryEngine sharedEngine rfl hagrees).1⟩

end Service

end PushQueue
