import Mathlib.Data.List.Basic
import PushQueue.Proofs.Rotation
import PushQueue.Proofs.Sweep

/-!
The upkeep of the monthly tables. A rotation makes the tables of the current month and of the next
one, and it drops those that are read as months before the window; no other table is touched, and a
second rotation in the same month finds nothing to do.
-/

namespace PushQueue

namespace Store

variable {s s' : Store} {name : String} {names : List String} {kind : TableKind} {table : Table}
  {done : Bool}

structure Made (names : List String) (s s' : Store) : Prop where
  absent : ∀ name ∈ names, s.tables.get? name = none
  fresh : ∀ name ∈ names, s'.tables.get? name = some (.messages .empty)
  others : ∀ name, name ∉ names → s'.tables.get? name = s.tables.get? name

structure Dropped (names : List String) (s s' : Store) : Prop where
  stored : ∀ name ∈ names, name ∈ s.messageTables
  gone : ∀ name ∈ names, s'.tables.get? name = none
  others : ∀ name, name ∉ names → s'.tables.get? name = s.tables.get? name

theorem checkName_eq_ok_iff : checkName name = .ok () ↔ TableName.isValid name = true := by
  unfold checkName
  split <;> simp_all

theorem createTable_eq_ok (h : createTable kind name s = .ok (done, s')) :
    TableName.isValid name = true ∧
      ((done = false ∧ s' = s ∧ ∃ table, s.tables.get? name = some table ∧ table.kind = kind) ∨
        (done = true ∧ s.tables.get? name = none ∧ s' = s.setTable name (.empty kind))) := by
  unfold createTable at h
  split at h
  next => cases h
  next hname =>
    refine ⟨checkName_eq_ok_iff.1 hname, ?_⟩
    split at h
    next table hget =>
      split at h
      next hkind =>
        obtain ⟨rfl, rfl⟩ := Prod.mk.inj (Except.ok.inj h)
        exact .inl ⟨rfl, rfl, table, hget, hkind⟩
      next => cases h
    next hget =>
      split at h
      next => cases h
      next =>
        obtain ⟨rfl, rfl⟩ := Prod.mk.inj (Except.ok.inj h)
        exact .inr ⟨rfl, hget, rfl⟩

theorem routers_of_createTable (h : createTable .routers name s = .ok (done, s')) :
    TableName.isValid name = true ∧ (∃ rows, s'.tables.get? name = some (.routers rows)) ∧
      (∀ other table, s.tables.get? other = some table → s'.tables.get? other = some table) ∧
      ∀ other, s.tables.get? other = none →
        s'.tables.get? other = none ∨
          other = name ∧ s'.tables.get? other = some (.routers .empty) := by
  obtain ⟨hname, ⟨-, rfl, table, hget, hkind⟩ | ⟨-, hget, rfl⟩⟩ := createTable_eq_ok h
  · refine ⟨hname, ?_, fun _ _ => id, fun _ => .inl⟩
    cases table with
    | messages => cases hkind
    | routers rows => exact ⟨rows, hget⟩
  · refine ⟨hname, ⟨.empty, (get?_setTable ..).trans (if_pos rfl)⟩, fun other table hother => ?_,
      fun other hother => ?_⟩
    · have hne : name ≠ other := by
        rintro rfl
        rw [hget] at hother
        cases hother
      rw [get?_setTable, if_neg hne, hother]
    · rw [get?_setTable]
      by_cases hne : name = other
      · exact .inr ⟨hne.symm, if_pos hne⟩
      · exact .inl ((if_neg hne).trans hother)

theorem mem_messageTables_of_createTable {other : String}
    (h : createTable .routers name s = .ok (done, s')) :
    other ∈ s'.messageTables ↔ other ∈ s.messageTables := by
  obtain ⟨-, -, hkeeps, hadds⟩ := routers_of_createTable h
  rw [Admin.mem_messageTables, Admin.mem_messageTables]
  cases hget : s.tables.get? other with
  | some table => rw [hkeeps other table hget]
  | none => rcases hadds other hget with hnone | ⟨-, hsome⟩ <;> simp [*]

theorem createTable_of_get? (hname : TableName.isValid name = true)
    (hget : s.tables.get? name = some table) (hkind : table.kind = kind) :
    createTable kind name s = .ok (false, s) := by
  unfold createTable
  rw [checkName_eq_ok_iff.2 hname, hget]
  exact if_pos hkind

theorem dropMessageTable_eq_ok (h : dropMessageTable name s = .ok (done, s')) :
    (done = false ∧ s' = s ∧ name ∉ s.messageTables) ∨
      (done = true ∧ name ∈ s.messageTables ∧ s' = ⟨s.tables.erase name⟩) := by
  unfold dropMessageTable at h
  split at h
  next => cases h
  next =>
    split at h
    next rows hget =>
      obtain ⟨rfl, rfl⟩ := Prod.mk.inj (Except.ok.inj h)
      exact .inr ⟨rfl, Admin.mem_messageTables.2 ⟨rows, hget⟩, rfl⟩
    next hget =>
      obtain ⟨rfl, rfl⟩ := Prod.mk.inj (Except.ok.inj h)
      refine .inl ⟨rfl, rfl, fun hmem => ?_⟩
      obtain ⟨rows, hrows⟩ := Admin.mem_messageTables.1 hmem
      exact hget rows hrows

theorem mem_messageTables_congr (h : s'.tables.get? name = s.tables.get? name) :
    name ∈ s'.messageTables ↔ name ∈ s.messageTables := by
  rw [Admin.mem_messageTables, Admin.mem_messageTables, h]

theorem Made.mem_messageTables (h : Made names s s') :
    name ∈ s'.messageTables ↔ name ∈ s.messageTables ∨ name ∈ names := by
  by_cases hname : name ∈ names
  · have hfresh := Admin.mem_messageTables.2 ⟨_, h.fresh name hname⟩
    exact ⟨fun _ => .inr hname, fun _ => hfresh⟩
  · rw [mem_messageTables_congr (h.others name hname)]
    exact ⟨.inl, fun hmem => hmem.resolve_right hname⟩

theorem Dropped.mem_messageTables (h : Dropped names s s') :
    name ∈ s'.messageTables ↔ name ∈ s.messageTables ∧ name ∉ names := by
  by_cases hname : name ∈ names
  · have hgone : name ∉ s'.messageTables := fun hmem => by
      obtain ⟨rows, hrows⟩ := Admin.mem_messageTables.1 hmem
      rw [h.gone name hname] at hrows
      cases hrows
    exact ⟨fun hmem => absurd hmem hgone, fun hmem => absurd hname hmem.2⟩
  · rw [mem_messageTables_congr (h.others name hname)]
    exact ⟨fun hmem => ⟨hmem, hname⟩, And.left⟩

theorem Made.cons (hget : s.tables.get? name = none)
    (h : Made names (s.setTable name (.empty .messages)) s') :
    name ∉ names ∧ Made (name :: names) s s' := by
  have hfresh : name ∉ names := fun hmem => by
    have habsent := h.absent name hmem
    rw [get?_setTable, if_pos rfl] at habsent
    cases habsent
  refine ⟨hfresh, ?_, ?_, fun other hother => ?_⟩
  · refine List.forall_mem_cons.2 ⟨hget, fun other hmem => ?_⟩
    have habsent := h.absent other hmem
    have hne : name ≠ other := fun heq => hfresh (heq ▸ hmem)
    rwa [get?_setTable, if_neg hne] at habsent
  · refine List.forall_mem_cons.2 ⟨?_, h.fresh⟩
    rw [h.others name hfresh, get?_setTable, if_pos rfl]
    rfl
  · obtain ⟨hne, hother⟩ := not_or.1 (mt List.mem_cons.2 hother)
    rw [h.others other hother, get?_setTable, if_neg (Ne.symm hne)]

theorem Dropped.cons (hmem : name ∈ s.messageTables)
    (h : Dropped names ⟨s.tables.erase name⟩ s') : name ∉ names ∧ Dropped (name :: names) s s' := by
  have herase (other : String) : (s.tables.erase name).get? other =
      if name = other then none else s.tables.get? other := SortedMap.get?_erase _ _ _
  have hgone : name ∉ names := fun hin => by
    obtain ⟨rows, hrows⟩ := Admin.mem_messageTables.1 (h.stored name hin)
    rw [herase, if_pos rfl] at hrows
    cases hrows
  refine ⟨hgone, ?_, ?_, fun other hother => ?_⟩
  · refine List.forall_mem_cons.2 ⟨hmem, fun other hin => ?_⟩
    have hne : name ≠ other := fun heq => hgone (heq ▸ hin)
    exact (mem_messageTables_congr ((herase other).trans (if_neg hne))).1 (h.stored other hin)
  · refine List.forall_mem_cons.2 ⟨?_, h.gone⟩
    rw [h.others name hgone, herase, if_pos rfl]
  · obtain ⟨hne, hother⟩ := not_or.1 (mt List.mem_cons.2 hother)
    rw [h.others other hother, herase, if_neg (Ne.symm hne)]

end Store

namespace Migration

open PushQueue.Action Store

variable {e : Engine} {store : Store} {names made dropped : List String}

theorem makeTables_of_gives (h : (makeTables names).Gives e made store) :
    Made made e.store store ∧ made.Nodup ∧ (∀ name ∈ made, name ∈ names) ∧
      ∀ name ∈ names, TableName.isValid name = true ∧ name ∈ store.messageTables := by
  induction names generalizing e made with
  | nil =>
    obtain ⟨rfl, rfl⟩ := Gives.of_pure h
    exact ⟨⟨nofun, nofun, fun _ _ => rfl⟩, .nil, nofun, nofun⟩
  | cons name rest ih =>
    obtain ⟨hit, e₁, hcall, hafter⟩ := Gives.of_bind h
    obtain ⟨others, hothers, rfl⟩ := Gives.of_bind_pure hafter
    obtain ⟨hmade, hnodup, hsub, hrest⟩ := ih hothers
    have hmem : name ∈ e₁.store.messageTables → name ∈ store.messageTables :=
      fun h => hmade.mem_messageTables.2 (.inl h)
    rcases createTable_eq_ok hcall.of_call with
      ⟨hvalid, ⟨rfl, hstore, table, hget, hkind⟩ | ⟨rfl, hget, hstore⟩⟩
    · obtain ⟨rows, rfl⟩ : ∃ rows, table = .messages rows := by
        cases table with
        | messages rows => exact ⟨rows, rfl⟩
        | routers => cases hkind
      rw [hstore] at hmade hmem
      refine ⟨hmade, hnodup, fun other h => List.mem_cons_of_mem _ (hsub other h), ?_⟩
      exact List.forall_mem_cons.2 ⟨⟨hvalid, hmem (Admin.mem_messageTables.2 ⟨rows, hget⟩)⟩, hrest⟩
    · rw [hstore] at hmade
      obtain ⟨hfresh, hall⟩ := hmade.cons hget
      refine ⟨hall, List.nodup_cons.2 ⟨hfresh, hnodup⟩, ?_, ?_⟩
      · exact List.forall_mem_cons.2
          ⟨List.mem_cons_self, fun other h => List.mem_cons_of_mem _ (hsub other h)⟩
      · have hname := hall.mem_messageTables.2 (.inr (List.mem_cons_self (a := name)))
        exact List.forall_mem_cons.2 ⟨⟨hvalid, hname⟩, hrest⟩

theorem dropTables_of_gives (h : (dropTables names).Gives e dropped store) :
    Dropped dropped e.store store ∧ dropped.Nodup ∧
      ∀ name, name ∈ dropped ↔ name ∈ names ∧ name ∈ e.store.messageTables := by
  induction names generalizing e dropped with
  | nil =>
    obtain ⟨rfl, rfl⟩ := Gives.of_pure h
    exact ⟨⟨nofun, nofun, fun _ _ => rfl⟩, .nil, by simp⟩
  | cons name rest ih =>
    obtain ⟨hit, e₁, hcall, hafter⟩ := Gives.of_bind h
    obtain ⟨others, hothers, rfl⟩ := Gives.of_bind_pure hafter
    obtain ⟨hdropped, hnodup, hmem⟩ := ih hothers
    rcases dropMessageTable_eq_ok hcall.of_call with
      ⟨rfl, hstore, habsent⟩ | ⟨rfl, hname, hstore⟩
    · rw [hstore] at hdropped hmem
      refine ⟨hdropped, hnodup, fun other => ?_⟩
      by_cases heq : other = name
      · subst heq
        simp [habsent, hmem]
      · simp [hmem, heq]
    · rw [hstore] at hdropped hmem
      obtain ⟨hgone, hall⟩ := hdropped.cons hname
      refine ⟨hall, List.nodup_cons.2 ⟨hgone, hnodup⟩, fun other => ?_⟩
      by_cases heq : other = name
      · subst heq
        simp [hname]
      · have hother : other ∈ (⟨e.store.tables.erase name⟩ : Store).messageTables ↔
            other ∈ e.store.messageTables :=
          mem_messageTables_congr (by rw [SortedMap.get?_erase, if_neg (Ne.symm heq)])
        simp [hmem, heq, hother]

theorem run_createTable_of_get? {name : String} {table : Table} {kind : TableKind}
    (hfault : e.fault = none) (hname : TableName.isValid name = true)
    (hget : e.store.tables.get? name = some table) (hkind : table.kind = kind) :
    Action.run (call (createTable kind name)) e = (.ok false, e) :=
  run_call_of_ok hfault (createTable_of_get? hname hget hkind)

theorem run_makeTables_of_stored (hfault : e.fault = none)
    (h : ∀ name ∈ names, TableName.isValid name = true ∧ name ∈ e.store.messageTables) :
    Action.run (makeTables names) e = (.ok [], e) := by
  induction names with
  | nil => rfl
  | cons name rest ih =>
    obtain ⟨⟨hvalid, hname⟩, hrest⟩ := List.forall_mem_cons.1 h
    obtain ⟨rows, hrows⟩ := Admin.mem_messageTables.1 hname
    have hkind : (Table.messages rows).kind = .messages := rfl
    have hcreate := run_createTable_of_get? hfault hvalid hrows hkind
    simp only [makeTables, run_bind, hcreate, ih hrest]
    rfl

section Retired

variable {rotation : Rotation} {today : Date} {name : String} {month : Month}

theorem isRetired_eq_true_iff : isRetired rotation today name = true ↔
    ∃ month, TableName.month rotation.stem name = .ok month ∧ month < rotation.oldest today := by
  unfold isRetired
  split
  next month hmonth => simp [hmonth]
  next error hmonth => simp [hmonth]

theorem isRetired_ofMonth (h : rotation.oldest today ≤ month) :
    isRetired rotation today (TableName.ofMonth rotation.stem month) = false := by
  rw [Bool.eq_false_iff, ne_eq, isRetired_eq_true_iff]
  rintro ⟨month', hread, hlt⟩
  rw [TableName.month_ofMonth hread] at hlt
  exact Month.not_lt.2 h hlt

theorem isRetired_of_mem_ahead
    (h : name ∈ [rotation.currentTable today, rotation.nextTable today]) :
    isRetired rotation today name = false := by
  have hle := rotation.oldest_le today
  rw [List.mem_cons, List.mem_singleton, rotation.nextTable_eq] at h
  rcases h with rfl | rfl
  · exact isRetired_ofMonth hle
  · refine isRetired_ofMonth (Month.le_iff.2 ?_)
    rw [Month.index_next]
    exact Int.le_trans (Month.le_iff.1 hle) (by omega)

theorem run_dropRetired_of_none (hfault : e.fault = none)
    (h : ∀ name ∈ e.store.messageTables, isRetired rotation today name = false) :
    Action.run (dropRetired rotation today) e = (.ok [], e) := by
  have hnone : e.store.messageTables.filter (isRetired rotation today) = [] := by
    rw [List.filter_eq_nil_iff]
    intro name hname
    simp [h name hname]
  rw [dropRetired, run_bind, run_read hfault]
  simp only [hnone]
  rfl

end Retired

end Migration

namespace Admin

open PushQueue.Action Store Migration

variable {settings : Settings} {rotation : Rotation} {today : Date} {e e' : Engine} {s s' : Store}
  {store : Store} {report : Report} {created dropped : List String} {oldest : Month}

/-- What a rotation does to the tables, where months before `oldest` are no longer retained. -/
structure Upkept (stem router : String) (today oldest : Month) (s s' : Store)
    (created dropped : List String) : Prop where
  current : TableName.ofMonth stem today ∈ s'.messageTables
  next : TableName.ofMonth stem today.next ∈ s'.messageTables
  routers : ∃ rows, s'.tables.get? router = some (.routers rows)
  mem_dropped : ∀ name, name ∈ dropped ↔ name ∈ s.messageTables ∧
    ∃ month, TableName.month stem name = .ok month ∧ month < oldest
  /-- The report gives the message tables that are gone. -/
  gone : dropped.Nodup ∧
    ∀ name, name ∈ dropped ↔ name ∈ s.messageTables ∧ s'.tables.get? name = none
  /-- The report gives the message tables that are new. -/
  made : created.Nodup ∧
    ∀ name, name ∈ created ↔ s.tables.get? name = none ∧ name ∈ s'.messageTables
  kept : ∀ name table, s.tables.get? name = some table → name ∉ dropped →
    s'.tables.get? name = some table
  /-- New tables are empty; other than those of months only the router table may be new. -/
  fresh : ∀ name table, s.tables.get? name = none → s'.tables.get? name = some table →
    name ∈ created ∧ table = .messages .empty ∨ name = router ∧ table = .routers .empty

theorem rotate_steps (h : (rotate settings rotation today).Gives e report store) :
    ∃ s₁ s₂ hit created dropped, report = .rotated created dropped ∧
      createTable .routers settings.tables.router e.store = .ok (hit, s₁) ∧
      Made created s₁ s₂ ∧ created.Nodup ∧
      (∀ name ∈ created, name ∈ [rotation.currentTable today, rotation.nextTable today]) ∧
      Dropped dropped s₂ store ∧ dropped.Nodup ∧
      (∀ name, name ∈ dropped ↔
        name ∈ s₂.messageTables ∧ isRetired rotation today name = true) ∧
      ∀ name ∈ [rotation.currentTable today, rotation.nextTable today],
        TableName.isValid name = true ∧ name ∈ store.messageTables := by
  obtain ⟨hit, e₁, hrouter, hafter⟩ := Gives.of_bind h
  obtain ⟨created, e₂, hcreated, hafter⟩ := Gives.of_bind hafter
  obtain ⟨dropped, hdropped, rfl⟩ := Gives.of_bind_pure hafter
  obtain ⟨names, e₃, hnames, hdropped⟩ := Gives.of_bind hdropped
  obtain ⟨hread, hstore⟩ := hnames.of_read
  obtain rfl := Except.ok.inj hread
  obtain ⟨hmade, hnodup, hsub, hthere⟩ := makeTables_of_gives hcreated
  obtain ⟨hgone, hnodup', hmem⟩ := dropTables_of_gives hdropped
  rw [hstore] at hgone hmem
  have hretired (name : String) :
      name ∈ dropped ↔ name ∈ e₂.store.messageTables ∧ isRetired rotation today name = true := by
    rw [hmem, List.mem_filter, and_right_comm, and_self]
  refine ⟨e₁.store, e₂.store, hit, created, dropped, rfl, hrouter.of_call, hmade, hnodup, hsub,
    hgone, hnodup', hretired, fun name hname => ?_⟩
  obtain ⟨hvalid, hstored⟩ := hthere name hname
  refine ⟨hvalid, hgone.mem_messageTables.2 ⟨hstored, fun hmem => ?_⟩⟩
  have hr := ((hretired name).1 hmem).2
  rw [isRetired_of_mem_ahead hname] at hr
  cases hr

theorem rotate_of_gives (h : (rotate settings rotation today).Gives e report store) :
    ∃ created dropped, report = .rotated created dropped ∧
      Upkept rotation.stem settings.tables.router today.month (rotation.oldest today) e.store store
        created dropped := by
  obtain ⟨s₁, s₂, hit, created, dropped, rfl, hrouter, hmade, hnodup, hsub, hdropped, hnodup',
    hretired, hahead⟩ := rotate_steps h
  obtain ⟨-, ⟨routers, hrouters⟩, hkeeps, hadds⟩ := routers_of_createTable hrouter
  have hmem₁ {name : String} : name ∈ s₁.messageTables ↔ name ∈ e.store.messageTables :=
    mem_messageTables_of_createTable hrouter
  have hkept₁ {name : String} {table : Table} (hget : s₁.tables.get? name = some table)
      (hname : name ∉ dropped) : store.tables.get? name = some table := by
    have hcreated : name ∉ created := fun hmem => by
      rw [hmade.absent name hmem] at hget
      cases hget
    rw [hdropped.others name hname, hmade.others name hcreated, hget]
  have hmem_dropped (name : String) : name ∈ dropped ↔
      name ∈ e.store.messageTables ∧ isRetired rotation today name = true := by
    rw [hretired, hmade.mem_messageTables, hmem₁, or_and_right, or_iff_left]
    rintro ⟨hname, hr⟩
    rw [isRetired_of_mem_ahead (hsub name hname)] at hr
    cases hr
  refine ⟨created, dropped, rfl, ?_⟩
  constructor
  case current => exact (hahead _ List.mem_cons_self).2
  case next =>
    rw [← rotation.nextTable_eq]
    exact (hahead _ (List.mem_cons_of_mem _ List.mem_cons_self)).2
  case routers =>
    refine ⟨routers, hkept₁ hrouters fun hmem => ?_⟩
    obtain ⟨rows, hrows⟩ := mem_messageTables.1 (hmem₁.2 ((hmem_dropped _).1 hmem).1)
    rw [hrouters] at hrows
    cases hrows
  case mem_dropped =>
    intro name
    rw [hmem_dropped, isRetired_eq_true_iff]
  case gone =>
    refine ⟨hnodup', fun name => ⟨fun hname => ?_, fun ⟨hstored, hgone⟩ => ?_⟩⟩
    · exact ⟨((hmem_dropped name).1 hname).1, hdropped.gone name hname⟩
    · obtain ⟨rows, hrows⟩ := mem_messageTables.1 hstored
      refine Classical.not_not.1 fun hname => ?_
      rw [hkept₁ (hkeeps name _ hrows) hname] at hgone
      cases hgone
  case made =>
    refine ⟨hnodup, fun name => ⟨fun hname => ⟨?_, (hahead name (hsub name hname)).2⟩,
      fun ⟨habsent, hstored⟩ => ?_⟩⟩
    · cases hget : e.store.tables.get? name with
      | none => rfl
      | some table => rw [← hkeeps name table hget, hmade.absent name hname]
    · refine (hmade.mem_messageTables.1 (hdropped.mem_messageTables.1 hstored).1).resolve_left ?_
      rw [hmem₁, mem_messageTables, habsent]
      rintro ⟨rows, ⟨⟩⟩
  case kept => exact fun name table hget hname => hkept₁ (hkeeps name table hget) hname
  case fresh =>
    intro name table habsent hget
    have hname : name ∉ dropped := fun hmem => by
      rw [hdropped.gone name hmem] at hget
      cases hget
    rw [hdropped.others name hname] at hget
    by_cases hcreated : name ∈ created
    · rw [hmade.fresh name hcreated] at hget
      exact .inl ⟨hcreated, (Option.some.inj hget).symm⟩
    · rw [hmade.others name hcreated] at hget
      rcases hadds name habsent with hnone | ⟨hrouter, hsome⟩
      · rw [hnone] at hget
        cases hget
      · rw [hsome] at hget
        exact .inr ⟨hrouter, (Option.some.inj hget).symm⟩

theorem run_rotate_again (h : (rotate settings rotation today).Gives e report store)
    (hstore : e'.store = store) (hfault : e'.fault = none) :
    Action.run (rotate settings rotation today) e' = (.ok (.rotated [] []), e') := by
  obtain ⟨_, _, -, hupkept⟩ := rotate_of_gives h
  obtain ⟨s₁, s₂, hit, created, dropped, rfl, hrouter, -, -, -, hdropped, -, hretired, hahead⟩ :=
    rotate_steps h
  obtain ⟨hvalid, -⟩ := createTable_eq_ok hrouter
  obtain ⟨routers, hrouters⟩ := hupkept.routers
  subst hstore
  have hkind : (Table.routers routers).kind = .routers := rfl
  have hnone : ∀ name ∈ e'.store.messageTables, isRetired rotation today name = false := by
    intro name hname
    obtain ⟨hstored, hspared⟩ := hdropped.mem_messageTables.1 hname
    rw [Bool.eq_false_iff]
    exact fun hr => hspared ((hretired name).2 ⟨hstored, hr⟩)
  have hcreate := run_createTable_of_get? hfault hvalid hrouters hkind
  have hensure : Action.run (ensureTables rotation today) e' = (.ok [], e') :=
    run_makeTables_of_stored hfault hahead
  have hdrop := run_dropRetired_of_none hfault hnone
  simp only [rotate, run_bind, hcreate, hensure, hdrop]
  rfl

section Settings

theorem refuse_eq_ok_iff {α : Type} {x : Except KeyError α} {a : α} :
    Settings.refuse x = .ok a ↔ x = .ok a := by
  cases x <;> simp [Settings.refuse]

theorem rotation_eq_ok (h : settings.rotation = .ok rotation) :
    rotation.stem = settings.tables.stem ∧
      rotation.retained = max settings.tables.retainedMonths.toNat 1 :=
  Rotation.make_eq_ok (refuse_eq_ok_iff.1 h)

theorem oldest_eq (h : settings.rotation = .ok rotation)
    (holdest : oldest.index + (settings.tables.retainedMonths.toNat - 1 : Nat) = today.month.index)
    (hlow : 1000 ≤ oldest.year) (hhigh : today.year ≤ 9999) : rotation.oldest today = oldest := by
  obtain ⟨-, hretained⟩ := rotation_eq_ok h
  have hlow' : 12000 ≤ oldest.index := by
    unfold Month.index
    omega
  have hhigh' : today.month.index < 120000 := by
    have hnumber := today.month.in_year
    unfold Date.year at hhigh
    unfold Month.index
    omega
  rw [← Month.index_inj, Rotation.index_oldest, Rotation.past, Rotation.maxWindow, hretained]
  omega

theorem mapError_rotation (h : settings.rotation = .ok rotation) :
    settings.rotation.mapError StoreError.config = .ok rotation := by
  rw [h]
  rfl

theorem run_rotate_iff (h : settings.rotation = .ok rotation) {now : Instant} :
    (run settings now .rotate).Gives e (.ok report) store ↔
      (rotate settings rotation now.date).Gives e report store := by
  have hx := mapError_rotation h
  constructor
  · intro hrun
    obtain ⟨rotation', hrotation', hrun⟩ := Gives.of_ofExcept_bind hrun
    obtain rfl := Except.ok.inj (hx.symm.trans hrotation')
    obtain ⟨report', hrotate, hreport⟩ := Gives.of_bind_pure hrun
    exact Except.ok.inj hreport ▸ hrotate
  · exact fun hrotate => Gives.ofExcept_bind hx (hrotate.bind_pure _)

theorem exists_rotation_of_run {now : Instant} {command : Command}
    {result : Except AdminError Report}
    (h : (run settings now command).Gives e result store) :
    ∃ rotation, settings.rotation = .ok rotation := by
  obtain ⟨rotation, hrotation, -⟩ := Gives.of_ofExcept_bind h
  cases hsettings : settings.rotation with
  | ok rotation => exact ⟨rotation, rfl⟩
  | error error =>
    rw [hsettings] at hrotation
    cases hrotation

end Settings

theorem Upkept.ofMonth_not_mem {stem router : String} {current month : Month}
    (h : Upkept stem router current oldest s s' created dropped) (hle : oldest ≤ month) :
    TableName.ofMonth stem month ∉ dropped := by
  intro hmem
  obtain ⟨-, month', hmonth, hlt⟩ := (h.mem_dropped _).1 hmem
  rw [TableName.month_ofMonth hmonth] at hlt
  exact Month.not_lt.2 hle hlt

theorem Upkept.not_retains {day : Date}
    (h : Upkept rotation.stem settings.tables.router today.month (rotation.oldest today) s s'
      created dropped)
    {name : String} (hname : name ∈ dropped) (hday : today.month ≤ day.month) :
    rotation.retains day name = false := by
  obtain ⟨-, month, hmonth, hlt⟩ := (h.mem_dropped name).1 hname
  rw [Bool.eq_false_iff]
  intro hretains
  obtain ⟨month', hle, -, rfl⟩ := Rotation.retains_iff.1 hretains
  rw [TableName.month_ofMonth hmonth] at hlt
  exact Month.not_lt.2 (Int.le_trans (rotation.oldest_mono hday) hle) hlt

/-- A rotation that succeeds drops the message tables that are read as months before the retained
ones, and makes those of the current month and the next if they are missing. Its report says so, and
no other table is touched: none of a retained month or a later one, none of another stem, and none
of routers. -/
theorem rotate_drops_retired {now : Instant}
    (holdest : oldest.index + (settings.tables.retainedMonths.toNat - 1 : Nat) =
      now.date.month.index)
    (hlow : 1000 ≤ oldest.year) (hhigh : now.date.year ≤ 9999)
    (h : (run settings now .rotate).Gives e (.ok report) store) :
    ∃ rotation created dropped, settings.rotation = .ok rotation ∧
      report = .rotated created dropped ∧
      Upkept settings.tables.stem settings.tables.router now.date.month oldest e.store store created
        dropped ∧
      (∀ month, oldest ≤ month → TableName.ofMonth settings.tables.stem month ∉ dropped) ∧
      (∀ stem month, stem ≠ settings.tables.stem → 1000 ≤ month.year → month.year ≤ 9999 →
        TableName.ofMonth stem month ∉ dropped) ∧
      (∀ name ∈ dropped, ∀ day, now.date.month ≤ day.month → rotation.retains day name = false) ∧
      ∀ now' e', now'.date = now.date → e'.store = store → e'.fault = none →
        (run settings now' .rotate).Gives e' (.ok (.rotated [] [])) store := by
  obtain ⟨rotation, hsettings⟩ := exists_rotation_of_run h
  obtain ⟨hstem, -⟩ := rotation_eq_ok hsettings
  rw [run_rotate_iff hsettings] at h
  obtain ⟨created, dropped, rfl, hupkept⟩ := rotate_of_gives h
  have hretains {name : String} (hname : name ∈ dropped) {day : Date}
      (hday : now.date.month ≤ day.month) : rotation.retains day name = false :=
    hupkept.not_retains hname hday
  rw [hstem, oldest_eq hsettings holdest hlow hhigh] at hupkept
  refine ⟨rotation, created, dropped, hsettings, rfl, hupkept, fun month => hupkept.ofMonth_not_mem,
    fun stem month hne hlow hhigh hmem => ?_, fun name hname day => hretains hname,
    fun now' e' hnow hstore hfault => ?_⟩
  · obtain ⟨-, month', hmonth, -⟩ := (hupkept.mem_dropped _).1 hmem
    exact hne (TableName.stem_eq_of_month hmonth hlow hhigh).symm
  · rw [run_rotate_iff hsettings, hnow]
    exact ⟨e', run_rotate_again h hstore hfault, hstore⟩

/-- Tables of months, one of another stem and one whose name is no month's. -/
def autumnEngine : Engine where
  store := ⟨((((SortedMap.empty.insert "message_2023_10" (.messages .empty)).insert
    "message_2023_11" (.messages .empty)).insert "message_eu_2020_01" (.messages .empty)).insert
    "message_2020_1" (.messages .empty))⟩

theorem exists_report {act : Action (Except AdminError Report)}
    (h : (Action.run act e).1.map Except.isOk = .ok true) :
    ∃ report store, act.Gives e (.ok report) store := by
  obtain ⟨result, hresult, hok⟩ := map_eq_ok_iff.1 h
  cases result with
  | ok report => exact ⟨report, _, _, Prod.ext hresult rfl, rfl⟩
  | error => cases hok

def january : Instant := ⟨1705300000000⟩

theorem rotate_drops_retired_january :
    (Month.mk 2023 11 (by decide)).index + (({} : Settings).tables.retainedMonths.toNat - 1 : Nat) =
      january.date.month.index ∧
    january.date.year ≤ 9999 ∧
    ∃ created dropped store,
      (run {} january .rotate).Gives autumnEngine (.ok (.rotated created dropped)) store ∧
      "message_2023_10" ∈ dropped ∧ "message_2023_11" ∉ dropped ∧ "message_eu_2020_01" ∉ dropped ∧
      "message_2024_01" ∈ store.messageTables ∧ "message_2024_02" ∈ store.messageTables := by
  have holdest : (Month.mk 2023 11 (by decide)).index +
      (({} : Settings).tables.retainedMonths.toNat - 1 : Nat) = january.date.month.index := by
    decide +kernel
  have hhigh : january.date.year ≤ 9999 := by decide +kernel
  obtain ⟨report, store, hgives⟩ : ∃ report store,
      (run {} january .rotate).Gives autumnEngine (.ok report) store :=
    exists_report (by decide +kernel)
  obtain ⟨-, created, dropped, -, rfl, hupkept, hlater, hstems, -⟩ :=
    rotate_drops_retired holdest (by decide) hhigh hgives
  have hnovember : TableName.ofMonth ({} : Settings).tables.stem ⟨2023, 11, by decide⟩ =
      "message_2023_11" := by decide +kernel
  have hother : TableName.ofMonth "message_eu" ⟨2020, 1, by decide⟩ = "message_eu_2020_01" := by
    decide +kernel
  have hcurrent : TableName.ofMonth ({} : Settings).tables.stem january.date.month =
      "message_2024_01" := by decide +kernel
  have hnext : TableName.ofMonth ({} : Settings).tables.stem january.date.month.next =
      "message_2024_02" := by decide +kernel
  refine ⟨holdest, hhigh, created, dropped, store, hgives, ?_, ?_, ?_,
    hcurrent ▸ hupkept.current, hnext ▸ hupkept.next⟩
  · exact (hupkept.mem_dropped _).2
      ⟨by decide +kernel, ⟨2023, 10, by decide⟩, by decide +kernel, by decide⟩
  · rw [← hnovember]
    exact hlater ⟨2023, 11, by decide⟩ (by decide)
  · rw [← hother]
    exact hstems "message_eu" ⟨2020, 1, by decide⟩ (by decide) (by decide) (by decide)

end Admin

end PushQueue
