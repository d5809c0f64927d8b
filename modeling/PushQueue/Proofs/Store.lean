import PushQueue.Proofs.Results
import PushQueue.Store.Messages
import PushQueue.Store.Routers

/-!
Tables of the store. A change of one table is seen under its name alone, and the rows of a table are
of one kind.
-/

namespace PushQueue.Store

variable {α : Type} {s s' : Store} {name other : String} {table : Table} {a : α}

theorem isValid_of_table (h : s.table name = .ok table) : TableName.isValid name = true := by
  unfold Store.table checkName at h
  by_cases hname : TableName.isValid name = true
  · exact hname
  · simp [hname] at h

theorem table_setTable (h : TableName.isValid name = true) (s : Store) (table : Table) :
    (s.setTable name table).table name = .ok table := by
  simp [Store.table, checkName, h, setTable, SortedMap.get?_insert]

theorem table_setTable_of_ne (h : name ≠ other) (s : Store) (table : Table) :
    (s.setTable name table).table other = s.table other := by
  simp [Store.table, setTable, SortedMap.get?_insert, h]

theorem get?_setTable (s : Store) (name other : String) (table : Table) :
    (s.setTable name table).tables.get? other =
      if name = other then some table else s.tables.get? other :=
  SortedMap.get?_insert _ _ _ _

theorem get?_of_table (h : s.table name = .ok table) : s.tables.get? name = some table := by
  unfold Store.table checkName at h
  rw [if_pos (isValid_of_table h)] at h
  cases hget : s.tables.get? name with
  | none => simp [hget] at h
  | some stored => simpa [hget] using h

theorem table_eq_ok_iff (hname : TableName.isValid name = true) :
    s.table name = .ok table ↔ s.tables.get? name = some table := by
  refine ⟨get?_of_table, fun hget => ?_⟩
  unfold Store.table checkName
  rw [if_pos hname, hget]

theorem setTable_of_table (h : s.table name = .ok table) : s.setTable name table = s :=
  congrArg Store.mk (SortedMap.insert_of_get? (get?_of_table h))

@[simp] theorem setTable_setTable (s : Store) (name : String) (table table' : Table) :
    (s.setTable name table).setTable name table' = s.setTable name table' := by
  apply congrArg Store.mk
  apply SortedMap.ext_get?
  intro other
  by_cases h : name = other <;> simp [setTable, SortedMap.get?_insert, h]

section Messages

variable {rows : MessageRows}

theorem messageRows_eq_ok_iff :
    s.messageRows name = .ok rows ↔ s.table name = .ok (.messages rows) := by
  unfold messageRows
  split <;> simp_all

theorem messageRows_setTable (h : TableName.isValid name = true) (s : Store)
    (rows : MessageRows) : (s.setTable name (.messages rows)).messageRows name = .ok rows :=
  messageRows_eq_ok_iff.2 (table_setTable h s _)

theorem messageRows_setTable_of_ne (h : name ≠ other) (s : Store) (table : Table) :
    (s.setTable name table).messageRows other = s.messageRows other := by
  unfold messageRows
  rw [table_setTable_of_ne h]

theorem messageRows_congr (h : s'.tables.get? name = s.tables.get? name) :
    s'.messageRows name = s.messageRows name := by
  unfold messageRows Store.table
  rw [h]

theorem updateMessages_eq (h : s.messageRows name = .ok rows) (f : MessageRows → α × MessageRows) :
    updateMessages name f s = .ok ((f rows).1, s.setTable name (.messages (f rows).2)) := by
  unfold updateMessages
  rw [h]
  rfl

theorem exists_rows_of_updateMessages {f : MessageRows → α × MessageRows}
    (h : updateMessages name f s = .ok (a, s')) :
    ∃ rows, s.messageRows name = .ok rows ∧ a = (f rows).1 ∧
      s' = s.setTable name (.messages (f rows).2) := by
  obtain ⟨rows, hrows, heq⟩ := map_eq_ok_iff.1 h
  obtain ⟨rfl, rfl⟩ := Prod.mk.inj heq
  exact ⟨rows, hrows, rfl, rfl⟩

theorem putRows_eq (h : s.messageRows name = .ok rows) (written : List MessageRow) :
    putRows name written s = .ok ((), s.setTable name
      (.messages (written.foldl (fun m r => m.insert r.key r.content) rows))) := by
  unfold putRows
  cases written with
  | nil =>
    have htable := messageRows_eq_ok_iff.1 h
    simp [checkName, isValid_of_table htable, Except.map, setTable_of_table htable]
  | cons row rest => exact updateMessages_eq h _

theorem query_eq (h : s.messageRows name = .ok rows) (partition : String) (range : KeyRange)
    (limit : Nat) :
    s.query name partition range limit = .ok ((select rows partition range).take limit) := by
  rw [query, h]
  rfl

theorem mem_select_iff {p : String} {range : KeyRange} {row : MessageRow} :
    row ∈ select rows p range ↔ rows.get? row.key = some row.content ∧ row.key.partition = p ∧
      range.contains row.key.sortKey = true := by
  rw [← SortedMap.mem_entries_iff]
  constructor
  · intro h
    obtain ⟨entry, hentry, rfl⟩ := List.mem_map.1 h
    obtain ⟨hmem, hin⟩ := List.mem_filter.1 hentry
    obtain ⟨hp, hrange⟩ := Bool.and_eq_true_iff.1 hin
    exact ⟨hmem, of_decide_eq_true hp, hrange⟩
  · rintro ⟨hmem, hp, hrange⟩
    refine List.mem_map.2 ⟨(row.key, row.content), List.mem_filter.2 ⟨hmem, ?_⟩, rfl⟩
    simp [hp, hrange]

theorem pairwise_select (rows : MessageRows) (p : String) (range : KeyRange) :
    (select rows p range).Pairwise fun a b => compare a.key b.key = .lt :=
  List.pairwise_map.2 (SortedMap.ascending _)

end Messages

section Routers

variable {rows : RouterRows}

theorem routerRows_eq_ok_iff :
    s.routerRows name = .ok rows ↔ s.table name = .ok (.routers rows) := by
  unfold routerRows
  split <;> simp_all

theorem exists_rows_of_updateRouters {f : RouterRows → α × RouterRows}
    (h : updateRouters name f s = .ok (a, s')) :
    ∃ rows, s.routerRows name = .ok rows ∧ a = (f rows).1 ∧
      s' = s.setTable name (.routers (f rows).2) := by
  obtain ⟨rows, hrows, heq⟩ := map_eq_ok_iff.1 h
  obtain ⟨rfl, rfl⟩ := Prod.mk.inj heq
  exact ⟨rows, hrows, rfl, rfl⟩

theorem ne_of_rows {messages : MessageRows} (h : s.routerRows name = .ok rows)
    (h' : s.messageRows other = .ok messages) : name ≠ other := by
  rintro rfl
  rw [routerRows_eq_ok_iff] at h
  rw [messageRows_eq_ok_iff, h] at h'
  cases h'

theorem messageRows_of_updateRouters {messages : MessageRows} {f : RouterRows → α × RouterRows}
    (h : updateRouters name f s = .ok (a, s')) (hrows : s.messageRows other = .ok messages) :
    s'.messageRows other = .ok messages := by
  obtain ⟨routers, hrouters, -, rfl⟩ := exists_rows_of_updateRouters h
  rw [messageRows_setTable_of_ne (ne_of_rows hrouters hrows), hrows]

theorem getRouter_eq_ok_iff {partition : String} {found : Option RouterContent} :
    s.getRouter name partition = .ok found ↔
      ∃ rows, s.routerRows name = .ok rows ∧ rows.get? partition = found :=
  map_eq_ok_iff

theorem getRouter_setTable (h : s.routerRows name = .ok rows) (rows' : RouterRows)
    (partition : String) :
    (s.setTable name (.routers rows')).getRouter name partition = .ok (rows'.get? partition) := by
  have hname := isValid_of_table (routerRows_eq_ok_iff.1 h)
  exact getRouter_eq_ok_iff.2 ⟨rows', routerRows_eq_ok_iff.2 (table_setTable hname s _), rfl⟩

theorem changeRouter_eq {partition : String} {stored : RouterContent}
    {holds : RouterContent → Bool} (h : s.routerRows name = .ok rows)
    (hget : rows.get? partition = some stored) (hholds : holds stored = true)
    (change : RouterContent → RouterContent) :
    changeRouter name partition holds change s =
      .ok (true, s.setTable name (.routers (rows.insert partition (change stored)))) := by
  simp only [changeRouter, updateRouters, h, Except.map, hget, hholds, ↓reduceIte]

theorem updateRouters_eq (h : s.routerRows name = .ok rows) (f : RouterRows → α × RouterRows) :
    updateRouters name f s = .ok ((f rows).1, s.setTable name (.routers (f rows).2)) := by
  unfold updateRouters
  rw [h]
  rfl

def registered (name : String) (new : RouterContent) : Option RouterContent → Bool × RouterContent
  | none => (true, new)
  | some stored =>
    if stored.yieldsTo new then
      (true, if offersShadowed name then stored else new.mergeInto stored)
    else (false, stored)

theorem putRouter_eq (h : s.routerRows name = .ok rows) (partition : String)
    (new : RouterContent) :
    putRouter name partition new s =
      .ok ((registered name new (rows.get? partition)).1, s.setTable name (.routers
        (rows.insert partition (registered name new (rows.get? partition)).2))) := by
  refine (updateRouters_eq h _).trans ?_
  cases hget : rows.get? partition with
  | none => simp [registered, upsert, hget]
  | some stored =>
    cases hyields : stored.yieldsTo new with
    | false => simp [registered, hyields, SortedMap.insert_of_get? hget]
    | true =>
      cases hname : offersShadowed name with
      | false => simp [registered, hyields, upsert, hget, hname]
      | true => simp [registered, hyields, upsert, hget, hname, SortedMap.insert_of_get? hget]

theorem exists_rows_putRouter (h : s.routerRows name = .ok rows) (partition : String)
    (new : RouterContent) :
    ∃ written rows',
      putRouter name partition new s = .ok (written, s.setTable name (.routers rows')) ∧
      rows'.get? partition =
        match rows.get? partition with
        | none => some new
        | some stored =>
          some (if stored.yieldsTo new && !offersShadowed name then new.mergeInto stored
            else stored) := by
  refine ⟨_, _, putRouter_eq h partition new, ?_⟩
  rw [SortedMap.get?_insert, if_pos rfl]
  cases rows.get? partition with
  | none => rfl
  | some stored =>
    cases hyields : stored.yieldsTo new with
    | false => simp [registered, hyields]
    | true => cases hname : offersShadowed name <;> simp [registered, hyields, hname]

theorem exists_rows_changeRouter (h : s.routerRows name = .ok rows) (partition : String)
    (holds : RouterContent → Bool) (change : RouterContent → RouterContent) :
    ∃ changed rows',
      changeRouter name partition holds change s =
        .ok (changed, s.setTable name (.routers rows')) ∧
      rows'.get? partition =
        (rows.get? partition).map fun stored =>
          if holds stored then change stored else stored := by
  refine ⟨_, _, updateRouters_eq h _, ?_⟩
  cases hget : rows.get? partition with
  | none => simp [hget]
  | some stored => cases hholds : holds stored <;> simp [hholds, hget, SortedMap.get?_insert]

theorem deletePartition_eq (h : s.routerRows name = .ok rows) (partition : String) :
    deletePartition name partition s =
      .ok (rows.contains partition, s.setTable name (.routers (rows.erase partition))) := by
  simp only [deletePartition, routerRows_eq_ok_iff.1 h, Except.map]

end Routers

end PushQueue.Store
