import Mathlib.Algebra.Group.Nat.Defs
import PushQueue.Admin
import PushQueue.Proofs.Effects
import PushQueue.Proofs.Store

/-!
The sweep of the message tables. Every message table is cut down to the rows that have not expired,
and the report gives for each of them how many rows are gone; a sweep that fails on its way has
swept some of the tables. No other table is touched.
-/

namespace PushQueue

/-- The times are read with the same sign. -/
def SameSign (x y : UInt64) : Prop := 2 ^ 63 ≤ x.toNat ↔ 2 ^ 63 ≤ y.toNat

/-- Signed seconds compare as unsigned ones do on one side of the sign, and the other way around on
different sides. -/
theorem expiredBefore_iff_sameSign (cutoff : UInt64) (content : RowContent) :
    expiredBefore cutoff content = true ↔
      (content.expiry < cutoff ↔ SameSign content.expiry cutoff) := by
  have htoInt (x : UInt64) :
      x.toInt64.toInt = if 2 * x.toNat < 2 ^ 64 then (x.toNat : Int) else x.toNat - 2 ^ 64 :=
    BitVec.toInt_eq_toNat_cond x.toBitVec
  have hexpiry := content.expiry.toNat_lt
  have hcutoff := cutoff.toNat_lt
  unfold expiredBefore
  rw [decide_eq_true_iff, Int64.lt_iff_toInt_lt, htoInt, htoInt, UInt64.lt_iff_toNat_lt, SameSign]
  omega

theorem expiredBefore_iff {cutoff : UInt64} {content : RowContent}
    (hcutoff : cutoff.toNat < 2 ^ 63) (hexpiry : content.expiry.toNat < 2 ^ 63) :
    expiredBefore cutoff content = true ↔ content.expiry.toNat < cutoff.toNat := by
  have hsign : SameSign content.expiry cutoff :=
    iff_of_false (Nat.not_le.2 hexpiry) (Nat.not_le.2 hcutoff)
  rw [expiredBefore_iff_sameSign, iff_true_right hsign, UInt64.lt_iff_toNat_lt]

namespace Admin

variable {cutoff : UInt64} {e : Engine} {name : String} {names : List String}
  {rows : MessageRows} {s s' s'' store : Store} {n : Nat} {removed : List (String × Nat)}

def kept (cutoff : UInt64) (rows : MessageRows) : MessageRows :=
  rows.filter fun _ content => !expiredBefore cutoff content

theorem get?_kept (cutoff : UInt64) (rows : MessageRows) (k : RowKey) :
    (kept cutoff rows).get? k = (rows.get? k).filter fun content => !expiredBefore cutoff content :=
  SortedMap.get?_filter rows _ k

theorem kept_kept (cutoff : UInt64) (rows : MessageRows) :
    kept cutoff (kept cutoff rows) = kept cutoff rows := by
  apply SortedMap.ext
  simp [kept, SortedMap.filter, List.filter_filter]

theorem size_kept_le (cutoff : UInt64) (rows : MessageRows) :
    (kept cutoff rows).size ≤ rows.size := List.length_filter_le _ _

section Steps

def Swept (cutoff : UInt64) (s s' : Store) : Prop :=
  ∀ name, s'.tables.get? name = s.tables.get? name ∨
    ∃ rows, s.tables.get? name = some (.messages rows) ∧
      s'.tables.get? name = some (.messages (kept cutoff rows))

theorem Swept.refl (cutoff : UInt64) (s : Store) : Swept cutoff s s := fun _ => .inl rfl

theorem Swept.trans (h : Swept cutoff s s') (h' : Swept cutoff s' s'') : Swept cutoff s s'' := by
  intro name
  rcases h name with hfirst | ⟨rows, hrows, hfirst⟩
  · rw [← hfirst]
    exact h' name
  · refine .inr ⟨rows, hrows, ?_⟩
    rcases h' name with hsecond | ⟨rows', hrows', hsecond⟩
    · rw [hsecond, hfirst]
    · obtain rfl : kept cutoff rows = rows' :=
        Table.messages.inj (Option.some.inj (hfirst.symm.trans hrows'))
      rw [hsecond, kept_kept]

theorem sweep_eq_ok (h : Store.sweep name cutoff s = .ok (n, s')) :
    ∃ rows, s.messageRows name = .ok rows ∧ n = rows.size - (kept cutoff rows).size ∧
      s' = s.setTable name (.messages (kept cutoff rows)) :=
  Store.exists_rows_of_updateMessages h

theorem swept_of_sweep (h : Store.sweep name cutoff s = .ok (n, s')) : Swept cutoff s s' := by
  obtain ⟨rows, hrows, -, rfl⟩ := sweep_eq_ok h
  intro other
  by_cases hname : name = other
  · subst hname
    refine .inr ⟨rows, Store.get?_of_table (Store.messageRows_eq_ok_iff.1 hrows), ?_⟩
    simp [Store.setTable, SortedMap.get?_insert]
  · left
    simp [Store.setTable, SortedMap.get?_insert, hname]

open PushQueue.Action (Built)

def Sweeping (cutoff : UInt64) {α : Type} (f : Store → Except StoreError (α × Store)) : Prop :=
  ∀ {s a s'}, f s = .ok (a, s') → Swept cutoff s s'

theorem built_sweepTables (cutoff : UInt64) (names : List String) :
    Built (Sweeping cutoff) (sweepTables cutoff names) := by
  induction names with
  | nil => exact .pure _
  | cons name rest ih =>
    exact .bind (.call fun h => swept_of_sweep h) fun count => .bind ih fun counts => .pure _

theorem built_run (settings : Settings) (now : Instant) :
    Built (Sweeping now.seconds) (run settings now .sweep) := by
  refine .ofExcept fun rotation _ => .bind (.bind (.call fun {s a s'} h => ?_) fun names =>
    .bind (built_sweepTables now.seconds names) fun counts => .pure _) fun report => .pure _
  cases h
  exact .refl _ _

theorem swept_run (settings : Settings) (now : Instant) (e : Engine) :
    Swept now.seconds e.store (Action.run (run settings now .sweep) e).2.store :=
  (built_run settings now).steps (.refl _) .trans (fun h => h) e

end Steps

section Reports

open PushQueue.Action

theorem mem_messageTables :
    name ∈ s.messageTables ↔ ∃ rows, s.tables.get? name = some (.messages rows) := by
  unfold Store.messageTables
  rw [List.mem_map]
  constructor
  · rintro ⟨⟨name, table⟩, hmem, rfl⟩
    obtain ⟨hmem, hkind⟩ := List.mem_filter.1 hmem
    have hget := (SortedMap.mem_entries_iff s.tables name table).1 hmem
    cases table with
    | messages rows => exact ⟨rows, hget⟩
    | routers => cases of_decide_eq_true hkind
  · rintro ⟨rows, hget⟩
    exact ⟨(name, .messages rows),
      List.mem_filter.2 ⟨(SortedMap.mem_entries_iff s.tables name _).2 hget, rfl⟩, rfl⟩

theorem nodup_messageTables (s : Store) : s.messageTables.Nodup := by
  refine List.Pairwise.map Prod.fst ?_ (s.tables.ascending.filter _)
  rintro a b hlt heq
  rw [heq, Std.ReflOrd.compare_self] at hlt
  cases hlt

/-- What a sweep of some tables has done to one of them. -/
def SweptTable (cutoff : UInt64) (s s' : Store) (removed : List (String × Nat)) (name : String) :
    Prop :=
  ∃ rows n, s.messageRows name = .ok rows ∧ s'.messageRows name = .ok (kept cutoff rows) ∧
    (name, n) ∈ removed ∧ n + (kept cutoff rows).size = rows.size

theorem sweepTables_of_gives (h : (sweepTables cutoff names).Gives e removed store)
    (hnodup : names.Nodup) :
    removed.map Prod.fst = names ∧
      (∀ name ∈ names, SweptTable cutoff e.store store removed name) ∧
      ∀ name ∉ names, store.messageRows name = e.store.messageRows name := by
  induction names generalizing e removed with
  | nil =>
    obtain ⟨rfl, rfl⟩ := Gives.of_pure h
    exact ⟨rfl, nofun, fun _ _ => rfl⟩
  | cons name rest ih =>
    obtain ⟨hfresh, hnodup⟩ := List.nodup_cons.1 hnodup
    obtain ⟨count, e₁, hcall, hrest⟩ := Gives.of_bind h
    obtain ⟨counts, hcounts, rfl⟩ := Gives.of_bind_pure hrest
    obtain ⟨rows, hrows, rfl, hstore⟩ := sweep_eq_ok hcall.of_call
    have hvalid := Store.isValid_of_table (Store.messageRows_eq_ok_iff.1 hrows)
    obtain ⟨hnames, hswept, hothers⟩ := ih hcounts hnodup
    refine ⟨by rw [List.map_cons, hnames], List.forall_mem_cons.2 ⟨?_, fun other hother => ?_⟩,
      fun other hother => ?_⟩
    · refine ⟨rows, _, hrows, ?_, List.mem_cons_self, Nat.sub_add_cancel (size_kept_le cutoff rows)⟩
      rw [hothers name hfresh, hstore, Store.messageRows_setTable hvalid]
    · obtain ⟨rows', n, hrows', hkept, hmem, hsize⟩ := hswept other hother
      have hne : name ≠ other := fun heq => hfresh (heq ▸ hother)
      rw [hstore, Store.messageRows_setTable_of_ne hne] at hrows'
      exact ⟨rows', n, hrows', hkept, List.mem_cons_of_mem _ hmem, hsize⟩
    · obtain ⟨hne, hother⟩ := not_or.1 (mt List.mem_cons.2 hother)
      rw [hothers other hother, hstore, Store.messageRows_setTable_of_ne (Ne.symm hne)]

theorem gives_sweepTables (cutoff : UInt64) (hfault : e.fault = none)
    (h : ∀ name ∈ names, TableName.isValid name = true ∧ name ∈ e.store.messageTables) :
    ∃ removed store, (sweepTables cutoff names).Gives e removed store := by
  induction names generalizing e with
  | nil => exact ⟨[], e.store, e, rfl, rfl⟩
  | cons name rest ih =>
    obtain ⟨⟨hvalid, hname⟩, hrest⟩ := List.forall_mem_cons.1 h
    obtain ⟨rows, hget⟩ := mem_messageTables.1 hname
    have hrows : e.store.messageRows name = .ok rows :=
      Store.messageRows_eq_ok_iff.2 ((Store.table_eq_ok_iff hvalid).2 hget)
    have hsweep : Store.sweep name cutoff e.store = .ok (rows.size - (kept cutoff rows).size,
        e.store.setTable name (.messages (kept cutoff rows))) := Store.updateMessages_eq hrows _
    have hstill : ∀ other ∈ rest, TableName.isValid other = true ∧
        other ∈ (e.store.setTable name (.messages (kept cutoff rows))).messageTables := by
      intro other hother
      obtain ⟨hvalid, hstored⟩ := hrest other hother
      refine ⟨hvalid, ?_⟩
      rw [mem_messageTables, Store.get?_setTable]
      split
      · exact ⟨_, rfl⟩
      · exact mem_messageTables.1 hstored
    obtain ⟨removed, store, hgives⟩ := ih
      (e := { e with store := e.store.setTable name (.messages (kept cutoff rows)) }) hfault hstill
    exact ⟨_, store, .after (run_call_of_ok hfault hsweep) (hgives.bind_pure _)⟩

theorem sweep_of_gives {settings : Settings} {now : Instant} {report : Report}
    (h : (run settings now .sweep).Gives e (.ok report) store) :
    ∃ removed, report = .swept removed ∧ removed.map Prod.fst = e.store.messageTables ∧
      ∀ name ∈ e.store.messageTables, SweptTable now.seconds e.store store removed name := by
  obtain ⟨rotation, -, h⟩ := Gives.of_ofExcept_bind h
  obtain ⟨report', h, hreport⟩ := Gives.of_bind_pure h
  obtain ⟨names, e₁, hnames, h⟩ := Gives.of_bind h
  obtain ⟨removed, hremoved, rfl⟩ := Gives.of_bind_pure h
  obtain ⟨hnames, hstore⟩ := hnames.of_read
  obtain rfl := Except.ok.inj hnames
  obtain ⟨hfst, hswept, -⟩ := sweepTables_of_gives hremoved (nodup_messageTables _)
  rw [hstore] at hswept
  exact ⟨removed, Except.ok.inj hreport, hfst, hswept⟩

end Reports

end Admin

end PushQueue
