import PushQueue.Proofs.Isolation
import PushQueue.Proofs.Registrations

/-!
A registration merges. Whether it is accepted is told by the record that was read before, and what
is read after it is the new record with the values of the old one where it brings none, or the old
record as it was. Nothing else changes in any table.
-/

namespace PushQueue

namespace RouterRecord

def filledFrom (record old : RouterRecord) : RouterRecord :=
  { record with
    routerData := record.routerData <|> old.routerData
    lastConnect := record.lastConnect <|> old.lastConnect
    node := record.node <|> old.node
    recordVersion := record.recordVersion <|> old.recordVersion
    month := record.month <|> old.month }

def GivesWayTo (old record : RouterRecord) : Prop :=
  old.routerType = record.routerType ∧ (old.node = none ∨ old.connectedAt < record.connectedAt)

/-- The text that is stored for the connection data is read back as these. -/
def Decodes (record : RouterRecord) : Prop :=
  ∀ members ∈ record.routerData, Router.readData (Json.object members).render = .ok members

end RouterRecord

namespace Router

variable {r : Router} {u : SubscriberId} {e : Engine} {record user : RouterRecord}
  {row stored : RouterContent} {name p : String}

section Reading

theorem readRow_rowOf (h : record.Decodes) :
    readRow record.subscriber (rowOf record) = .ok record := by
  obtain ⟨subscriber, connectedAt, routerType, data, lastConnect, node, version, month⟩ := record
  cases data with
  | none => rfl
  | some members =>
    have hdata := h members rfl
    simp only [readRow, rowOf, Option.map_some, hdata, Except.map]

theorem readRow_mergeInto (h : record.Decodes) (hread : readRow u stored = .ok user) :
    readRow record.subscriber ((rowOf record).mergeInto stored) = .ok (record.filledFrom user) := by
  obtain ⟨oldData, holdData, rfl⟩ := map_eq_ok_iff.1 hread
  obtain ⟨subscriber, connectedAt, routerType, data, lastConnect, node, version, month⟩ := record
  cases data with
  | none => exact map_eq_ok_iff.2 ⟨oldData, holdData, rfl⟩
  | some members =>
    exact map_eq_ok_iff.2 ⟨some members, congrArg (Except.map some) (h members rfl), rfl⟩

theorem yieldsTo_iff (hread : readRow u stored = .ok user) (record : RouterRecord) :
    stored.yieldsTo (rowOf record) = true ↔ user.GivesWayTo record := by
  obtain ⟨oldData, -, rfl⟩ := map_eq_ok_iff.1 hread
  simp only [RouterContent.yieldsTo, Bool.and_eq_true, Bool.or_eq_true, decide_eq_true_eq,
    Option.isNone_iff_eq_none]
  exact Iff.rfl

def Intelligible (row : RouterContent) : Prop :=
  ∀ text ∈ row.routerData, ∃ members, readData text = .ok members

theorem Intelligible.exists_readRow (h : Intelligible row) (u : SubscriberId) :
    ∃ user, readRow u row = .ok user := by
  unfold readRow
  cases hdata : row.routerData with
  | none => exact ⟨_, rfl⟩
  | some text =>
    obtain ⟨members, hread⟩ := h text hdata
    simp only [hread, Except.map]
    exact ⟨_, rfl⟩

theorem intelligible_rowOf (h : record.Decodes) : Intelligible (rowOf record) := by
  intro text htext
  obtain ⟨members, hmembers, rfl⟩ := Option.map_eq_some_iff.1 htext
  exact ⟨members, h members hmembers⟩

theorem Takes.intelligible {found : Option RouterContent} (h : Takes record found row)
    (hrecord : record.Decodes) (hfound : ∀ stored ∈ found, Intelligible stored) :
    Intelligible row := by
  have hnew := intelligible_rowOf hrecord
  cases h with
  | fresh => exact hnew
  | @merged stored =>
    intro text htext
    have hmerged : ((rowOf record).routerData <|> stored.routerData) = some text := htext
    cases hdata : (rowOf record).routerData with
    | none =>
      rw [hdata] at hmerged
      exact hfound stored rfl text hmerged
    | some text' =>
      rw [hdata] at hmerged
      exact hnew text (hdata.trans hmerged)

end Reading

section Runs

variable {attempts : List Attempt}

def AllDecode (attempts : List Attempt) : Prop :=
  ∀ a ∈ attempts, ∀ r record, a.service = .registerRecord r record → record.Decodes

theorem intelligible_attemptAll (hdata : AllDecode attempts)
    (h : ∀ row ∈ e.store.routerAt name p, Intelligible row) :
    ∀ row ∈ (attemptAll e attempts).store.routerAt name p, Intelligible row := by
  refine Engine.holds_after (P := fun e => ∀ row ∈ e.store.routerAt name p, Intelligible row) h
    fun a ha e h row' hrow' => ?_
  rcases fades_or_takes a e name p with
    hfades | ⟨r, record, taken, hservice, -, -, -, htaken, htakes⟩
  · obtain ⟨row, hrow, hfaded⟩ := hfades row' hrow'
    rw [Intelligible, hfaded.routerData]
    exact h row hrow
  · obtain rfl : taken = row' := Option.some.inj (htaken.symm.trans hrow')
    exact htakes.intelligible (hdata a ha r record hservice) h

theorem exists_routerRows_attemptAll {rows : RouterRows} (hrows : e.store.routerRows name = .ok rows)
    (attempts : List Attempt) :
    ∃ rows', (attemptAll e attempts).store.routerRows name = .ok rows' := by
  refine Engine.holds_after (P := fun e => ∃ rows, e.store.routerRows name = .ok rows)
    ⟨rows, hrows⟩ fun a _ e htable => ?_
  obtain ⟨rows, hrows⟩ := htable
  have hagrees := a.service.agreesOn_run { e with fault := a.fault }
  rcases hagrees.routerRows name with ⟨error, herror, -⟩ | ⟨_, rows', -, hrows', -⟩
  · rw [hrows] at herror
    cases herror
  · exact ⟨rows', hrows'⟩

theorem exists_rows_reached (hempty : Holds r u e.store none) (hdata : AllDecode attempts) :
    ∃ rows, (attemptAll e attempts).store.routerRows r.handle.table = .ok rows ∧
      ∀ row ∈ rows.get? (r.handle.partition u), Intelligible row := by
  obtain ⟨rows, hrows, hget⟩ := Store.getRouter_eq_ok_iff.1 hempty
  obtain ⟨rows', hrows'⟩ := exists_routerRows_attemptAll hrows attempts
  refine ⟨rows', hrows', ?_⟩
  rw [← Store.routerAt_of_routerRows hrows']
  refine intelligible_attemptAll hdata fun row hrow => ?_
  rw [Store.routerAt_of_routerRows hrows, hget] at hrow
  cases hrow

end Runs

section Merging

variable {rows : RouterRows} {found : Option RouterContent} {old : Option RouterRecord}

/-- What a registration is told and what it leaves, against the records read before and after it. -/
structure Merges (r : Router) (e : Engine) (record : RouterRecord) (old : Option RouterRecord)
    (answer : Bool) (e' : Engine) : Prop where
  reads : (Action.run (r.get record.subscriber) e).1 = .ok old
  registers : Action.run (r.register record) e = (.ok answer, e')
  answer_iff : answer = true ↔ ∀ stored ∈ old, stored.GivesWayTo record
  accepted : answer = true → (Action.run (r.get record.subscriber) e').1 =
    .ok (some (old.elim record record.filledFrom))
  rejected : answer = false → (Action.run (r.get record.subscriber) e').1 = .ok old
  tables : ∀ name, name ≠ r.handle.table →
    e'.store.tables.get? name = e.store.tables.get? name
  rows : ∀ p, p ≠ r.handle.partition record.subscriber →
    e'.store.routerAt r.handle.table p = e.store.routerAt r.handle.table p

theorem run_register (hfault : e.fault = none)
    (hrows : e.store.routerRows r.handle.table = .ok rows) (record : RouterRecord) :
    let p := r.handle.partition record.subscriber
    let outcome := Store.registered r.handle.table (rowOf record) (rows.get? p)
    ∃ stats, Action.run (r.register record) e = (.ok outcome.1,
      { e with
        store := e.store.setTable r.handle.table (.routers (rows.insert p outcome.2))
        stats }) := by
  obtain ⟨stats, hrun⟩ := Action.run_tracked_call hfault
    (Store.putRouter r.handle.table (r.handle.partition record.subscriber) (rowOf record))
    .registerUser
  rw [Store.putRouter_eq hrows] at hrun
  exact ⟨stats, hrun⟩

theorem run_get_of_reads (hfault : e.fault = none) (hrow : Holds r u e.store found)
    (hreads : Reads u found old) : (Action.run (r.get u) e).1 = .ok old := by
  cases hreads with
  | none =>
    have hrow : e.store.getRouter r.handle.table (r.handle.partition u) = .ok none := hrow
    obtain ⟨stats, hrun⟩ : ∃ stats, Action.run (r.get u) e = (.ok none, { e with stats }) := by
      apply Action.run_tracked
      simp only [Action.run_bind, Action.run_read hfault, hrow]
      rfl
    exact congrArg Prod.fst hrun
  | some hread =>
    obtain ⟨stats, hrun⟩ := run_get hfault hrow hread
    exact congrArg Prod.fst hrun

theorem run_register_of_holds (hfault : e.fault = none)
    (hrow : Holds r record.subscriber e.store found) :
    let outcome := Store.registered r.handle.table (rowOf record) found
    (Action.run (r.register record) e).1 = .ok outcome.1 ∧
      Holds r record.subscriber (Action.run (r.register record) e).2.store (some outcome.2) := by
  obtain ⟨rows, hrows, rfl⟩ := Store.getRouter_eq_ok_iff.1 hrow
  obtain ⟨stats, hrun⟩ := run_register hfault hrows record
  rw [hrun]
  refine ⟨rfl, .setTable hrows ?_⟩
  rw [SortedMap.get?_insert, if_pos rfl]

theorem merges_of_registered {row' : RouterContent} {answer : Bool} (hfault : e.fault = none)
    (hrows : e.store.routerRows r.handle.table = .ok rows)
    (hreads : Reads record.subscriber (rows.get? (r.handle.partition record.subscriber)) old)
    (hregistered : Store.registered r.handle.table (rowOf record)
      (rows.get? (r.handle.partition record.subscriber)) = (answer, row'))
    (hread : readRow record.subscriber row' = .ok user)
    (hanswer : answer = true ↔ ∀ stored ∈ old, stored.GivesWayTo record)
    (hafter : some user = if answer then some (old.elim record record.filledFrom) else old) :
    ∃ old answer e', Merges r e record old answer e' := by
  have hrow : Holds r record.subscriber e.store
      (rows.get? (r.handle.partition record.subscriber)) :=
    Store.getRouter_eq_ok_iff.2 ⟨rows, hrows, rfl⟩
  obtain ⟨-, hrow'⟩ := run_register_of_holds hfault hrow
  obtain ⟨stats, hrun⟩ := run_register hfault hrows record
  rw [hregistered] at hrow' hrun
  have hget : (Action.run (r.get record.subscriber) (Action.run (r.register record) e).2).1 =
      .ok (some user) := by
    refine run_get_of_reads ?_ hrow' (.some hread)
    rw [hrun, hfault]
  refine ⟨old, answer, (Action.run (r.register record) e).2, ?_⟩
  constructor
  case reads => exact run_get_of_reads hfault hrow hreads
  case registers => rw [hrun]
  case answer_iff => exact hanswer
  case accepted =>
    intro h
    rw [hget, hafter, if_pos h]
  case rejected =>
    intro h
    rw [hget, hafter, h, if_neg Bool.false_ne_true]
  case tables =>
    intro name hname
    rw [hrun, Store.get?_setTable, if_neg hname.symm]
  case rows =>
    intro p hp
    rw [hrun, Store.routerAt_setTable, Store.routerAt_of_routerRows hrows,
      SortedMap.get?_insert, if_neg hp.symm]

/-- A row that can be read is merged into, unless the row that is offered is shadowed. -/
theorem exists_merges (hfault : e.fault = none)
    (hrows : e.store.routerRows r.handle.table = .ok rows)
    (hname : Store.offersShadowed r.handle.table = false) (hrecord : record.Decodes)
    (hread : ∀ row ∈ rows.get? (r.handle.partition record.subscriber), Intelligible row) :
    ∃ old answer e', Merges r e record old answer e' := by
  have hmerges {row' : RouterContent} {user : RouterRecord} {old : Option RouterRecord}
    {answer : Bool} := @merges_of_registered r e record user rows old row' answer hfault hrows
  cases hfound : rows.get? (r.handle.partition record.subscriber) with
  | none =>
    rw [hfound] at hmerges
    exact hmerges .none rfl (readRow_rowOf hrecord) (by simp) rfl
  | some stored =>
    rw [hfound] at hmerges
    obtain ⟨user, huser⟩ := (hread stored hfound).exists_readRow record.subscriber
    have hyields_iff := yieldsTo_iff huser record
    cases hyields : stored.yieldsTo (rowOf record) with
    | true =>
      have hregistered : Store.registered r.handle.table (rowOf record) (some stored) =
          (true, (rowOf record).mergeInto stored) := by
        simp [Store.registered, hyields, hname]
      refine hmerges (.some huser) hregistered (readRow_mergeInto hrecord huser) ?_ rfl
      simp [← hyields_iff, hyields]
    | false =>
      have hregistered : Store.registered r.handle.table (rowOf record) (some stored) =
          (false, stored) := by
        simp [Store.registered, hyields]
      refine hmerges (.some huser) hregistered huser ?_ rfl
      simp [← hyields_iff, hyields]

theorem Merges.exists_row {answer : Bool} {e' : Engine} {n : String}
    (h : Merges r e record old answer e') (haccepted : answer = true)
    (hnode : record.node = some n) :
    ∃ row, Holds r record.subscriber e'.store (some row) ∧ row.node = some n := by
  obtain ⟨found, hrow, hreads⟩ := reads_of_run_get (h.accepted haccepted)
  cases hreads with
  | @some row _ hread =>
    refine ⟨row, hrow, ?_⟩
    obtain ⟨routerData, -, huser⟩ := map_eq_ok_iff.1 hread
    have hmerged : (old.elim record record.filledFrom).node = some n := by
      cases old with
      | none => exact hnode
      | some user => simp [RouterRecord.filledFrom, hnode]
    rw [← hmerged, ← huser]

def Connection.fresh (c : Connection) (u : SubscriberId) : RouterRecord :=
  c.record u RouterRecord.defaultRouterType (.fresh ⟨0⟩ u)

theorem Connection.decodes_fresh (c : Connection) (u : SubscriberId) : (c.fresh u).Decodes :=
  fun members hmembers => absurd hmembers (Option.not_mem_none members)

theorem allDecode_singleton (hrecord : record.Decodes) (fault : Option Fault) :
    AllDecode [⟨.registerRecord r record, fault⟩] := by
  refine List.forall_mem_singleton.2 fun r' record' hservice => ?_
  cases hservice
  exact hrecord

/-- From a table without a row for the subscriber, and with data that can be read back: whatever
services have been asked for, a registration is told by the record before it whether it is accepted,
its own record is then read with the values of the old one where it has none, and the old one if it
is not. No other row changes in any table. But where the name of the table shadows the rows that are
offered, it does not hold. -/
theorem registration_merges_iff (r : Router) :
    (∀ e attempts record, Holds r record.subscriber e.store none → AllDecode attempts →
      record.Decodes → ∃ old answer e',
        Merges r { attemptAll e attempts with fault := none } record old answer e') ↔
      r.handle.table ≠ "excluded" := by
  constructor
  · intro hmerges hname
    have hempty := holds_emptyEngine r ⟨⟨1⟩⟩
    let first : Attempt := ⟨.registerRecord r (early.fresh ⟨⟨1⟩⟩), none⟩
    obtain ⟨old, answer, e', h⟩ := hmerges (emptyEngine r) [first] (late.fresh ⟨⟨1⟩⟩) hempty
      (allDecode_singleton (early.decodes_fresh ⟨⟨1⟩⟩) none) (late.decodes_fresh ⟨⟨1⟩⟩)
    obtain ⟨-, hstored⟩ :=
      @run_register_of_holds r (emptyEngine r) (early.fresh ⟨⟨1⟩⟩) none rfl hempty
    obtain ⟨hanswer, hsame⟩ := @run_register_of_holds r
      { attemptAll (emptyEngine r) [first] with fault := none } (late.fresh ⟨⟨1⟩⟩) _ rfl hstored
    -- The later registration is accepted, and assigns the row of the earlier one to itself.
    have hassigned : Store.registered "excluded" (rowOf (late.fresh ⟨⟨1⟩⟩))
        (some (rowOf (early.fresh ⟨⟨1⟩⟩))) = (true, rowOf (early.fresh ⟨⟨1⟩⟩)) := by
      decide +kernel
    rw [h.registers, hname] at hanswer hsame
    have haccepted : answer = true :=
      (Except.ok.inj hanswer).trans (congrArg Prod.fst hassigned)
    obtain ⟨row, hrow, hnode⟩ := h.exists_row haccepted rfl
    have hrow' : some row = some (rowOf (early.fresh ⟨⟨1⟩⟩)) :=
      (Except.ok.inj (hrow.symm.trans hsame)).trans (congrArg (some ·.2) hassigned)
    rw [Option.some.inj hrow'] at hnode
    have hne : early.node ≠ late.node := by decide
    exact hne (Option.some.inj hnode)
  · intro hname e attempts record hempty hdata hrecord
    obtain ⟨rows, hrows, hread⟩ := exists_rows_reached hempty hdata
    exact exists_merges rfl hrows (decide_eq_false hname) hrecord hread

def monthly : RouterRecord := { early.fresh ⟨⟨1⟩⟩ with month := some "message_2024_01" }

def reconnected : RouterRecord :=
  { late.fresh ⟨⟨1⟩⟩ with routerData := some [("token", .string "abc")] }

def soleText? : Option Json → Option (String × String)
  | some (.object [(name, .string value)]) => some (name, value)
  | _ => none

theorem decodes_monthly : monthly.Decodes :=
  fun members hmembers => absurd hmembers (Option.not_mem_none members)

theorem decodes_reconnected : reconnected.Decodes := by
  have hsole : soleText? (Json.parse? (Json.object [("token", .string "abc")]).render) =
      some ("token", "abc") := by decide +kernel
  intro members hmembers
  obtain rfl : [("token", .string "abc")] = members := Option.some.inj hmembers
  unfold soleText? at hsole
  split at hsole
  next name value hparse =>
    cases hsole
    rw [readData, hparse]
    rfl
  next => cases hsole

theorem registration_merges_iff_reconnected :
    routers.handle.table ≠ "excluded" ∧
    Holds routers ⟨⟨1⟩⟩ (emptyEngine routers).store none ∧ reconnected.Decodes ∧
    AllDecode [⟨.registerRecord routers monthly, none⟩] ∧
    ∃ old answer e', Merges routers
      { attemptAll (emptyEngine routers) [⟨.registerRecord routers monthly, none⟩] with
        fault := none } reconnected old answer e' := by
  have hname : routers.handle.table ≠ "excluded" := by decide
  have hempty := holds_emptyEngine routers ⟨⟨1⟩⟩
  have hdata := @allDecode_singleton routers monthly decodes_monthly none
  exact ⟨hname, hempty, decodes_reconnected, hdata,
    (registration_merges_iff routers).2 hname _ _ _ hempty hdata decodes_reconnected⟩

/-- The record is accepted, and the one before it is read back. -/
theorem accepted_record_lost_in_shadowed :
    Holds shadowed ⟨⟨1⟩⟩ (emptyEngine shadowed).store none ∧ reconnected.Decodes ∧
    AllDecode [⟨.registerRecord shadowed monthly, none⟩] ∧
    ∃ e', Action.run (shadowed.register reconnected)
        { attemptAll (emptyEngine shadowed) [⟨.registerRecord shadowed monthly, none⟩] with
          fault := none } = (.ok true, e') ∧
      (Action.run (shadowed.get ⟨⟨1⟩⟩) e').1.map (Option.map fun user =>
          (user.connectedAt, user.node, user.routerData.isSome)) =
        .ok (some (early.connectedAt, some early.node, false)) := by
  refine ⟨holds_emptyEngine shadowed ⟨⟨1⟩⟩, decodes_reconnected,
    allDecode_singleton decodes_monthly none, _, Prod.ext ?_ rfl, ?_⟩
  · decide +kernel
  · decide +kernel

end Merging

end Router

end PushQueue
