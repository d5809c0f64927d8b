import PushQueue.Proofs.Router
import PushQueue.Proofs.Upkeep

/-!
The first use of accepted settings. A rotation of an empty store makes the router table and the
tables of two months, and the indexes of all tables share their names. The settings are checked name
by name, and a router table may be given a name that a month needs: then, and only then, the
rotation fails.
-/

namespace PushQueue

namespace TableName

variable {stem : String} {m : Month}

theorem exists_last_ofMonth (stem : String) (m : Month) :
    ∃ start c, (ofMonth stem m).toList = start ++ [c] ∧ c.isDigit := by
  obtain ⟨a, b, hpadded⟩ := List.length_eq_two.1 (length_number m)
  have hb : b ∈ Text.padded 10 2 m.number := by simp [hpadded]
  refine ⟨stem.toList ++ '_' :: ((toString m.year).toList ++ ['_', a]), b, ?_,
    Text.isDigit_of_mem_padded hb⟩
  simp [toList_ofMonth, hpadded]

theorem indexName_ne_ofMonth (kind : TableKind) (name : String) :
    Table.indexName kind name ≠ ofMonth stem m := by
  intro heq
  obtain ⟨start, c, hlast, hdigit⟩ := exists_last_ofMonth stem m
  obtain ⟨start', letter, hindex, hletter⟩ : ∃ start' letter,
      (Table.indexName kind name).toList = start' ++ [letter] ∧ letter.isDigit = false := by
    cases kind with
    | messages =>
      exact ⟨"idx_".toList ++ name.toList ++ "_expir".toList, 'y', by simp [Table.indexName], rfl⟩
    | routers =>
      exact ⟨"idx_".toList ++ name.toList ++ "_last_connec".toList, 't', by simp [Table.indexName],
        rfl⟩
  rw [heq, hlast] at hindex
  obtain ⟨-, heq⟩ := List.append_inj' hindex rfl
  cases heq
  simp [hdigit] at hletter

end TableName

namespace Store

variable {s s' : Store} {kind : TableKind} {name router stem : String} {known : List Month}
  {m : Month} {done : Bool}

theorem clashes_iff : s.clashes kind name = true ↔
    (∃ table, s.tables.get? (Table.indexName kind name) = some table) ∨
      ∃ other table, s.tables.get? other = some table ∧
        Table.indexName table.kind other = name := by
  unfold clashes
  rw [Bool.or_eq_true, List.any_eq_true]
  refine or_congr ?_ ?_
  · rw [SortedMap.contains, Option.isSome_iff_exists]
  · constructor
    · rintro ⟨⟨other, table⟩, hmem, hindex⟩
      exact ⟨other, table, (SortedMap.mem_entries_iff _ _ _).1 hmem, of_decide_eq_true hindex⟩
    · rintro ⟨other, table, hget, hindex⟩
      exact ⟨(other, table), (SortedMap.mem_entries_iff _ _ _).2 hget, decide_eq_true hindex⟩

theorem createTable_eq_ok_iff (hvalid : TableName.isValid name = true)
    (hother : ∀ table, s.tables.get? name = some table → table.kind ≠ kind) :
    createTable kind name s = .ok (done, s') ↔
      (s.tables.get? name = none ∧ s.clashes kind name = false) ∧
        done = true ∧ s.setTable name (.empty kind) = s' := by
  unfold createTable
  rw [checkName_eq_ok_iff.2 hvalid]
  cases hget : s.tables.get? name with
  | some table => simp [hother table hget]
  | none => cases s.clashes kind name <;> simp [eq_comm]

structure Holds (router stem : String) (known : List Month) (s : Store) : Prop where
  routerTable : s.tables.get? router = some (.routers .empty)
  monthTables : ∀ m ∈ known, s.tables.get? (TableName.ofMonth stem m) = some (.messages .empty)
  others : ∀ name table, s.tables.get? name = some table →
    name = router ∨ ∃ m ∈ known, name = TableName.ofMonth stem m

def TakenBy (stem : String) (m : Month) (name : String) : Prop :=
  name = TableName.ofMonth stem m ∨
    name = Table.indexName .messages (TableName.ofMonth stem m)

theorem holds_router (router stem : String) :
    Holds router stem [] (Store.empty.setTable router (.routers .empty)) where
  routerTable := by rw [get?_setTable, if_pos rfl]
  monthTables := nofun
  others name table hget := by
    rw [get?_setTable] at hget
    split at hget
    next heq => exact .inl heq.symm
    next => cases hget

namespace Holds

theorem insert (h : Holds router stem known s) (hrouter : router ≠ TableName.ofMonth stem m) :
    Holds router stem (known ++ [m]) (s.setTable (TableName.ofMonth stem m) (.messages .empty)) where
  routerTable := by rw [get?_setTable, if_neg hrouter.symm, h.routerTable]
  monthTables other hother := by
    rw [get?_setTable]
    split
    · rfl
    next hne =>
      rcases List.mem_append.1 hother with hother | hother
      · exact h.monthTables other hother
      · rw [List.mem_singleton.1 hother] at hne
        exact absurd rfl hne
  others name table hget := by
    rw [get?_setTable] at hget
    split at hget
    next heq => exact .inr ⟨m, List.mem_append_right _ List.mem_cons_self, heq.symm⟩
    next =>
      refine (h.others name table hget).imp_right ?_
      rintro ⟨m', hm', rfl⟩
      exact ⟨m', List.mem_append_left _ hm', rfl⟩

theorem createTable_iff (h : Holds router stem known s)
    (hvalid : TableName.isValid (TableName.ofMonth stem m) = true) (hm : m ∉ known) :
    createTable .messages (TableName.ofMonth stem m) s = .ok (done, s') ↔
      ¬ TakenBy stem m router ∧ done = true ∧
        s.setTable (TableName.ofMonth stem m) (.messages .empty) = s' := by
  have hmonth {table : Table} (hget : s.tables.get? (TableName.ofMonth stem m) = some table) :
      TableName.ofMonth stem m = router := by
    refine (h.others _ table hget).resolve_right ?_
    rintro ⟨m', hm', heq⟩
    exact hm (TableName.ofMonth_injective heq ▸ hm')
  have habsent : s.tables.get? (TableName.ofMonth stem m) = none ↔
      router ≠ TableName.ofMonth stem m := by
    rw [Option.eq_none_iff_forall_ne_some]
    constructor
    · rintro hnone rfl
      exact hnone _ h.routerTable
    · exact fun hne table hget => hne (hmonth hget).symm
  have hclear : s.clashes .messages (TableName.ofMonth stem m) = false ↔
      router ≠ Table.indexName .messages (TableName.ofMonth stem m) := by
    rw [← Bool.not_eq_true, clashes_iff, not_iff_not]
    constructor
    · rintro (⟨table, hget⟩ | ⟨other, table, -, hindex⟩)
      · rcases h.others _ table hget with heq | ⟨m', -, heq⟩
        · exact heq.symm
        · exact absurd heq (TableName.indexName_ne_ofMonth _ _)
      · exact absurd hindex (TableName.indexName_ne_ofMonth _ _)
    · rintro rfl
      exact .inl ⟨_, h.routerTable⟩
  rw [createTable_eq_ok_iff hvalid, habsent, hclear, TakenBy, not_or]
  · rfl
  · intro table hget
    rw [hmonth hget, h.routerTable] at hget
    cases hget
    decide

theorem mem_messageTables_iff (h : Holds router stem known s) :
    name ∈ s.messageTables ↔ ∃ m ∈ known, name = TableName.ofMonth stem m := by
  rw [Admin.mem_messageTables]
  constructor
  · rintro ⟨rows, hget⟩
    refine (h.others name _ hget).resolve_left ?_
    rintro rfl
    rw [h.routerTable] at hget
    cases hget
  · rintro ⟨m, hm, rfl⟩
    exact ⟨_, h.monthTables m hm⟩

end Holds

end Store

namespace Migration

open PushQueue.Action Store

variable {e : Engine} {router stem : String} {known months : List Month} {made : List String}
  {store : Store}

theorem run_makeTables (h : Holds router stem known e.store) (hfault : e.fault = none)
    (hvalid : ∀ m ∈ months, TableName.isValid (TableName.ofMonth stem m) = true)
    (hnodup : (known ++ months).Nodup) (hfree : ∀ m ∈ months, ¬ TakenBy stem m router) :
    ∃ e', Action.run (makeTables (months.map (TableName.ofMonth stem))) e =
        (.ok (months.map (TableName.ofMonth stem)), e') ∧
      e'.fault = none ∧ Holds router stem (known ++ months) e'.store := by
  induction months generalizing e known with
  | nil => exact ⟨e, rfl, hfault, by rwa [List.append_nil]⟩
  | cons m rest ih =>
    obtain ⟨hm, hvalid⟩ := List.forall_mem_cons.1 hvalid
    obtain ⟨hfree', hfree⟩ := List.forall_mem_cons.1 hfree
    have hnew : m ∉ known := fun hmem =>
      (List.nodup_append.1 hnodup).2.2 m hmem m List.mem_cons_self rfl
    have hcreate := run_call_of_ok hfault ((h.createTable_iff hm hnew).2 ⟨hfree', rfl, rfl⟩)
    rw [List.append_cons] at hnodup ⊢
    obtain ⟨e', hrun, hrest⟩ := ih
      (e := { e with store := e.store.setTable (TableName.ofMonth stem m) (.messages .empty) })
      (h.insert (not_or.1 hfree').1) hfault hvalid hnodup hfree
    refine ⟨e', ?_, hrest⟩
    simp only [List.map_cons, makeTables, run_bind, hcreate, hrun]
    rfl

theorem free_of_makeTables (h : Holds router stem known e.store)
    (hvalid : ∀ m ∈ months, TableName.isValid (TableName.ofMonth stem m) = true)
    (hnodup : (known ++ months).Nodup)
    (hgives : (makeTables (months.map (TableName.ofMonth stem))).Gives e made store) :
    ∀ m ∈ months, ¬ TakenBy stem m router := by
  induction months generalizing e known made with
  | nil => nofun
  | cons m rest ih =>
    obtain ⟨hm, hvalid⟩ := List.forall_mem_cons.1 hvalid
    have hnew : m ∉ known := fun hmem =>
      (List.nodup_append.1 hnodup).2.2 m hmem m List.mem_cons_self rfl
    obtain ⟨hit, e₁, hcall, hafter⟩ := Gives.of_bind hgives
    obtain ⟨others, hothers, -⟩ := Gives.of_bind_pure hafter
    obtain ⟨hfree, -, hstore⟩ := (h.createTable_iff hm hnew).1 hcall.of_call
    rw [List.append_cons] at hnodup
    exact List.forall_mem_cons.2
      ⟨hfree, ih (hstore ▸ h.insert (not_or.1 hfree).1) hvalid hnodup hothers⟩

end Migration

namespace Settings

variable {settings : Settings} {name text : String}

theorem validate_eq_ok_iff : settings.validate = .ok () ↔
    (∃ rotation, settings.rotation = .ok rotation) ∧
      (∃ pseudonym, settings.pseudonym = .ok pseudonym) ∧
      TableName.isValid settings.tables.router = true ∧ settings.messages.fetchLimit ≠ 0 := by
  unfold validate TableName.check
  cases settings.rotation with
  | error => simp [bind, Except.bind]
  | ok rotation =>
    cases settings.pseudonym with
    | error => simp [bind, Except.bind]
    | ok pseudonym =>
      cases TableName.isValid settings.tables.router <;>
        by_cases hlimit : settings.messages.fetchLimit = 0 <;>
        simp [bind, Except.bind, refuse, hlimit]

theorem validate_of_parse (h : parse text = .ok settings) : settings.validate = .ok () := by
  unfold parse at h
  split at h
  next => cases h
  next s _ =>
    obtain ⟨_, hvalidate, rfl⟩ := map_eq_ok_iff.1 h
    exact hvalidate

theorem exists_handle (h : settings.validate = .ok ()) (hname : TableName.isValid name = true) :
    ∃ t, settings.handle name = .ok t := by
  obtain ⟨-, ⟨pseudonym, hpseudonym⟩, -⟩ := validate_eq_ok_iff.1 h
  unfold handle TableHandle.make
  rw [dif_pos hname, hpseudonym]
  exact ⟨_, rfl⟩

end Settings

namespace Admin

open PushQueue.Action Store Migration

variable {settings : Settings} {rotation : Rotation} {today : Date} {now : Instant} {e : Engine}
  {name text : String} {m : Month} {report : Report} {store : Store}

/-- The names that a rotation needs for its two tables and their indexes. -/
def namesAhead (rotation : Rotation) (today : Date) : List String :=
  [rotation.currentTable today, rotation.nextTable today].flatMap fun name =>
    [name, Table.indexName .messages name]

theorem mem_namesAhead_iff : name ∈ namesAhead rotation today ↔
    ∃ m ∈ [today.month, today.month.next], TakenBy rotation.stem m name := by
  simp [namesAhead, rotation.nextTable_eq, Rotation.currentTable, TakenBy, or_assoc]

theorem ensureTables_eq (rotation : Rotation) (today : Date) : ensureTables rotation today =
    makeTables ([today.month, today.month.next].map (TableName.ofMonth rotation.stem)) := by
  rw [ensureTables, rotation.nextTable_eq]
  rfl

theorem nodup_ahead (m : Month) : ([] ++ [m, m.next]).Nodup := by
  have hne : m ≠ m.next := fun heq => by
    have hindex := congrArg Month.index heq
    rw [Month.index_next] at hindex
    omega
  simp [hne]

theorem isValid_of_oldest_le (hyear : 0 ≤ (rotation.oldest today).year)
    (hle : rotation.oldest today ≤ m) :
    TableName.isValid (TableName.ofMonth rotation.stem m) = true := by
  apply TableName.isValid_ofMonth rotation.valid_stem
  have hnumber := m.in_year
  rw [Month.le_iff] at hle
  unfold Month.index at hle
  omega

theorem isValid_ahead (hyear : 0 ≤ (rotation.oldest today).year) :
    ∀ m ∈ [today.month, today.month.next],
      TableName.isValid (TableName.ofMonth rotation.stem m) = true := by
  have hle := Month.le_iff.1 (rotation.oldest_le today)
  simp only [List.forall_mem_cons]
  refine ⟨isValid_of_oldest_le hyear (Month.le_iff.2 hle), isValid_of_oldest_le hyear ?_, nofun⟩
  rw [Month.le_iff, Month.index_next]
  omega

section Rotates

theorem createTable_router (hvalid : TableName.isValid settings.tables.router = true) :
    createTable .routers settings.tables.router Store.empty =
      .ok (true, Store.empty.setTable settings.tables.router (.routers .empty)) := by
  rw [createTable_eq_ok_iff hvalid]
  · exact ⟨⟨rfl, rfl⟩, rfl, rfl⟩
  · rintro table ⟨⟩

theorem run_rotate_empty (hempty : e.store = .empty) (hfault : e.fault = none)
    (hvalid : TableName.isValid settings.tables.router = true)
    (hyear : 0 ≤ (rotation.oldest today).year)
    (hfree : settings.tables.router ∉ namesAhead rotation today) :
    ∃ e', Action.run (rotate settings rotation today) e =
        (.ok (.rotated [rotation.currentTable today, rotation.nextTable today] []), e') ∧
      Holds settings.tables.router rotation.stem [today.month, today.month.next] e'.store := by
  have hcreate := run_call_of_ok (e := e) hfault
    ((congrArg _ hempty).trans (createTable_router hvalid))
  have hfree' : ∀ m ∈ [today.month, today.month.next],
      ¬ TakenBy rotation.stem m settings.tables.router :=
    fun m hm htaken => hfree (mem_namesAhead_iff.2 ⟨m, hm, htaken⟩)
  obtain ⟨e', hensure, hfault', hholds⟩ := run_makeTables
    (e := { e with store := Store.empty.setTable settings.tables.router (.routers .empty) })
    (holds_router _ rotation.stem) hfault (isValid_ahead hyear) (nodup_ahead today.month) hfree'
  rw [← ensureTables_eq] at hensure
  have hkept : ∀ name ∈ e'.store.messageTables, isRetired rotation today name = false := by
    intro name hname
    obtain ⟨m, hm, rfl⟩ := hholds.mem_messageTables_iff.1 hname
    apply isRetired_of_mem_ahead
    rw [rotation.nextTable_eq]
    exact List.mem_map_of_mem hm
  have hdrop := run_dropRetired_of_none hfault' hkept
  refine ⟨e', ?_, hholds⟩
  simp only [rotate, run_bind, hcreate, hensure, hdrop]
  rw [rotation.nextTable_eq]
  rfl

theorem free_of_rotate (hempty : e.store = .empty)
    (hvalid : TableName.isValid settings.tables.router = true)
    (hyear : 0 ≤ (rotation.oldest today).year)
    (h : (rotate settings rotation today).Gives e report store) :
    settings.tables.router ∉ namesAhead rotation today := by
  obtain ⟨hit, e₁, hcall, hafter⟩ := Gives.of_bind h
  obtain ⟨created, e₂, hcreated, -⟩ := Gives.of_bind hafter
  have hcreate := hcall.of_call
  rw [hempty, createTable_router hvalid] at hcreate
  obtain ⟨-, hstore⟩ := Prod.mk.inj (Except.ok.inj hcreate)
  rw [ensureTables_eq] at hcreated
  have hfree := free_of_makeTables (hstore ▸ holds_router _ rotation.stem) (isValid_ahead hyear)
    (nodup_ahead today.month) hcreated
  rw [mem_namesAhead_iff]
  rintro ⟨m, hm, htaken⟩
  exact hfree m hm htaken

end Rotates

/-- What has to work on an empty store: a rotation, a list of the tables and a sweep after it, and
handles of all the tables that are in use then. -/
structure FirstUse (settings : Settings) (rotation : Rotation) (now : Instant) (e : Engine) :
    Prop where
  commands : ∃ report store, (run settings now .rotate).Gives e (.ok report) store ∧
    ∀ e', e'.store = store → e'.fault = none →
      (∃ report, (run settings now .tables).Gives e' (.ok report) store) ∧
      ∃ report swept, (run settings now .sweep).Gives e' (.ok report) swept
  handles : ∀ name ∈ settings.tables.router :: rotation.currentTable now.date ::
    rotation.nextTable now.date :: rotation.tables now.date, ∃ t, settings.handle name = .ok t

section Reports

theorem run_tables (h : settings.rotation = .ok rotation) (hfault : e.fault = none) :
    Action.run (run settings now .tables) e =
      (.ok (.ok (.tables settings.tables.router e.store.messageTables (rotation.tables now.date))),
        e) := by
  unfold run
  rw [run_ofExcept_bind, mapError_rotation h]
  simp only [tables, messageTables, run_bind, run_read hfault]
  rfl

theorem gives_sweep (h : settings.rotation = .ok rotation) (hfault : e.fault = none)
    (hvalid : ∀ name ∈ e.store.messageTables, TableName.isValid name = true) :
    ∃ removed store, (run settings now .sweep).Gives e (.ok (.swept removed)) store := by
  obtain ⟨removed, store, hsweep⟩ := gives_sweepTables now.seconds hfault
    fun name hname => ⟨hvalid name hname, hname⟩
  have hread : Action.run messageTables e = (.ok e.store.messageTables, e) := run_read hfault _
  have hreport : (sweep now.seconds).Gives e (.swept removed) store :=
    .after hread (hsweep.bind_pure _)
  exact ⟨removed, store, .ofExcept_bind (mapError_rotation h) (hreport.bind_pure _)⟩

end Reports

theorem exists_handle_in_use (h : settings.validate = .ok ())
    (hyear : 0 ≤ (rotation.oldest today).year) :
    ∀ name ∈ settings.tables.router :: rotation.currentTable today :: rotation.nextTable today ::
      rotation.tables today, ∃ t, settings.handle name = .ok t := by
  obtain ⟨-, -, hrouter, -⟩ := Settings.validate_eq_ok_iff.1 h
  have hahead := isValid_ahead hyear
  rw [List.forall_mem_cons, List.forall_mem_singleton, ← rotation.nextTable_eq] at hahead
  have hretained : ∀ name ∈ rotation.tables today, TableName.isValid name = true := by
    intro name hname
    obtain ⟨m, hle, -, rfl⟩ := Rotation.retains_iff.1 (List.contains_iff_mem.2 hname)
    exact isValid_of_oldest_le hyear hle
  simp only [List.forall_mem_cons]
  refine ⟨Settings.exists_handle h hrouter, Settings.exists_handle h hahead.1,
    Settings.exists_handle h hahead.2, fun name hname => ?_⟩
  exact Settings.exists_handle h (hretained name hname)

/-- As long as no month before the year zero is retained, accepted settings serve their first use
unless the router table has the name of the current or the next month's table or of an index of
theirs. Of names that are words of a query language, or that an engine keeps for itself, nothing is
said beyond that. -/
theorem first_use_succeeds_iff (h : Settings.parse text = .ok settings) :
    ∃ rotation, settings.rotation = .ok rotation ∧
      ∀ now e, e.store = .empty → e.fault = none → 0 ≤ (rotation.oldest now.date).year →
        (FirstUse settings rotation now e ↔
          settings.tables.router ∉ namesAhead rotation now.date) := by
  have hvalidate := Settings.validate_of_parse h
  obtain ⟨⟨rotation, hrotation⟩, -, hvalid, -⟩ := Settings.validate_eq_ok_iff.1 hvalidate
  refine ⟨rotation, hrotation, fun now e hempty hfault hyear => ⟨?_, fun hfree => ⟨?_, ?_⟩⟩⟩
  · rintro ⟨⟨report, store, hrotate, -⟩, -⟩
    exact free_of_rotate hempty hvalid hyear ((run_rotate_iff hrotation).1 hrotate)
  · obtain ⟨e₁, hrotate, hholds⟩ := run_rotate_empty hempty hfault hvalid hyear hfree
    refine ⟨_, e₁.store, (run_rotate_iff hrotation).2 ⟨e₁, hrotate, rfl⟩,
      fun e' hstore hfault' => ⟨?_, ?_⟩⟩
    · exact ⟨_, e', run_tables hrotation hfault', hstore⟩
    · have hvalid : ∀ name ∈ e'.store.messageTables, TableName.isValid name = true := by
        intro name hname
        obtain ⟨m, hm, rfl⟩ := hholds.mem_messageTables_iff.1 (hstore ▸ hname)
        exact isValid_ahead hyear m hm
      obtain ⟨removed, swept, hsweep⟩ := gives_sweep hrotation hfault' hvalid
      exact ⟨_, swept, hsweep⟩
  · exact exists_handle_in_use hvalidate hyear

theorem first_use_succeeds_iff_default :
    Settings.parse "" = .ok {} ∧ ({} : Settings).rotation = .ok Router.quarter ∧
      0 ≤ (Router.quarter.oldest january.date).year ∧ FirstUse {} Router.quarter january {} := by
  have hparse : Settings.parse "" = .ok {} := by decide +kernel
  have hquarter : ({} : Settings).rotation = .ok Router.quarter := rfl
  have hyear : 0 ≤ (Router.quarter.oldest january.date).year := by decide +kernel
  obtain ⟨rotation, hrotation, huse⟩ := first_use_succeeds_iff hparse
  obtain rfl := Except.ok.inj (hquarter.symm.trans hrotation)
  exact ⟨hparse, hquarter, hyear, (huse january {} rfl rfl hyear).2 (by decide +kernel)⟩

/-- A router table with the name of the current month's table, and one with that of an index. -/
theorem accepted_router_blocks_rotation :
    (∃ settings, Settings.parse "[tables]\nrouter_table = \"message_2024_01\"\n" = .ok settings ∧
      (Action.run (run settings january .rotate) {}).1.map (fun _ => ()) =
        .error (Store.wrongKind "message_2024_01")) ∧
    ∃ settings,
      Settings.parse "[tables]\nrouter_table = \"idx_message_2024_01_expiry\"\n" = .ok settings ∧
      (Action.run (run settings january .rotate) {}).1.map (fun _ => ()) =
        .error (.unavailable "name in use: message_2024_01") := by
  refine ⟨⟨{ tables := { router := "message_2024_01" } }, ?_, ?_⟩,
    { tables := { router := "idx_message_2024_01_expiry" } }, ?_, ?_⟩ <;> decide +kernel

end Admin

end PushQueue
