import PushQueue.Proofs.Channels
import PushQueue.Proofs.Mailbox.Overlap
import PushQueue.Proofs.Router
import PushQueue.Proofs.Upkeep

/-!
The report on a subscriber. It lists the rows before the queue and those after the read position,
each list up to the limit; for a subscriber without a read position the ranges of the two lists
overlap, and a row of the oldest layout may be listed twice.
-/

namespace PushQueue

theorem Action.Gives.of_withStats {α : Type} {act : Action α} {stats stats' : CallStats}
    {e : Engine} {a : α} {store : Store}
    (h : (Action.withStats stats act).Gives e (a, stats') store) :
    act.Gives { e with stats } a store := by
  obtain ⟨e', hrun, rfl⟩ := h
  obtain ⟨hresult, rfl⟩ := Prod.mk.inj hrun
  obtain ⟨a', ha', heq⟩ := map_eq_ok_iff.1 hresult
  obtain ⟨rfl, -⟩ := Prod.mk.inj heq
  exact ⟨_, Prod.ext ha' rfl, rfl⟩

namespace Admin

open PushQueue.Action Mailbox

variable {settings : Settings} {u : SubscriberId} {e : Engine} {report : SubscriberReport}
  {store : Store} {current : String} {now : Instant}

/-- The two lists of a report are read from two pages of the subscriber's partition. -/
structure Lists (settings : Settings) (report : SubscriberReport) (u : SubscriberId) (s : Store)
    (p : String) (rows : MessageRows) (bound : String) : Prop where
  table : ∃ router handle, settings.handle settings.tables.router = .ok router ∧
    router.forTable report.month = .ok handle ∧ handle.partition u = p ∧
    s.messageRows handle.table = .ok rows
  watermark : SortKey.timestampLowerBound report.watermark = .ok bound
  topics : (topicPage rows p settings.messages.fetchLimit.toNat).mapM (readRow u) =
    .ok report.topicMessages
  pending : (queuePage rows p bound settings.messages.fetchLimit.toNat).mapM (readRow u) =
    .ok report.pendingMessages

theorem lists_of_inspect (h : (inspect settings u current).Gives e (.ok report) store) :
    ∃ p rows bound, Lists settings report u e.store p rows bound := by
  obtain ⟨router, hrouter, h⟩ := h.of_ofExcept_bind
  obtain ⟨user, e₁, huser, h⟩ := Gives.of_bind h
  obtain ⟨hstore₁, -⟩ := Router.get_of_gives huser
  obtain ⟨names, e₂, hnames, h⟩ := Gives.of_bind h
  obtain ⟨-, hstore₂⟩ := hnames.of_read
  split at h
  next =>
    obtain ⟨hreport, -⟩ := h.of_pure
    cases hreport
  next =>
    obtain ⟨handle, hhandle, h⟩ := Gives.of_ofExcept_bind h
    obtain ⟨⟨registered, channels⟩, e₃, hall, h⟩ := Gives.of_bind h
    obtain ⟨hstore₃, -⟩ := Channels.all_of_gives hall
    obtain ⟨topics, e₄, htopics, h⟩ := Gives.of_bind h
    obtain ⟨hstore₄, -⟩ := fetch_of_gives htopics
    obtain ⟨pending, e₅, hpending, h⟩ := Gives.of_bind h
    obtain ⟨hreport, -⟩ := h.of_pure
    obtain ⟨rows, hrows, hread⟩ := topicPage_of_gives htopics
    obtain ⟨rows', bound, hrows', hbound, hread'⟩ := queuePage_of_gives hpending
    obtain rfl := Except.ok.inj hreport
    rw [hstore₃, hstore₂, hstore₁] at hrows
    rw [hstore₄, hstore₃, hstore₂, hstore₁] at hrows'
    obtain rfl := Except.ok.inj (hrows.symm.trans hrows')
    exact ⟨_, rows, bound, ⟨router, handle, hrouter, hhandle, rfl, hrows⟩, hbound, hread, hread'⟩

theorem lists_of_run (h : (run settings now (.inspect u)).Gives e (.ok (.subscriber report)) store) :
    ∃ p rows bound, Lists settings report u e.store p rows bound := by
  obtain ⟨rotation, -, h⟩ := Gives.of_ofExcept_bind h
  obtain ⟨result, hcounted, hresult⟩ := Gives.of_bind_pure h
  obtain ⟨⟨result', stats⟩, hinspect, rfl⟩ := Gives.of_bind_pure hcounted
  obtain ⟨counted, hcounted, hreport⟩ := map_eq_ok_iff.1 hresult.symm
  obtain ⟨report', rfl, hstats⟩ := map_eq_ok_iff.1 hcounted
  obtain rfl := Report.subscriber.inj hreport
  subst hstats
  obtain ⟨p, rows, bound, hlists⟩ := lists_of_inspect hinspect.of_withStats
  exact ⟨p, rows, bound, hlists.table, hlists.watermark, hlists.topics, hlists.pending⟩

/-- A report that is given lists a stored row twice if and only if there is no read position, the
row is of the oldest layout with a channel that starts with `01` and a letter, and the limit of the
report reaches it. -/
theorem listed_twice_iff
    (h : (run settings now (.inspect u)).Gives e (.ok (.subscriber report)) store) :
    ∃ p rows bound, Lists settings report u e.store p rows bound ∧
      ∀ row : MessageRow,
        (row ∈ topicPage rows p settings.messages.fetchLimit.toNat ∧
          row ∈ queuePage rows p bound settings.messages.fetchLimit.toNat) ↔
        report.watermark = none ∧ rows.get? row.key = some row.content ∧ row.key.partition = p ∧
          SortKey.IsDoubled row.key.sortKey ∧
          rank rows row.key < settings.messages.fetchLimit.toNat := by
  obtain ⟨p, rows, bound, hlists⟩ := lists_of_run h
  exact ⟨p, rows, bound, hlists, fun row =>
    mem_both_pages_iff hlists.watermark (exists_key_of_topicPage hlists.topics)⟩

def doubledRow : MessageRow where
  key := ⟨januaryTable.partition ⟨⟨1⟩⟩,
    (SortKey.legacy ⟨⟨0x01abcdef000040008000000000000000⟩⟩ "m").encode⟩
  content := { timestamp := some 0 }

def doubledRows : MessageRows := SortedMap.empty.insert doubledRow.key doubledRow.content

def doubledEngine : Engine where
  store := ⟨(SortedMap.empty.insert "router" (.routers .empty)).insert januaryTable.table
    (.messages doubledRows)⟩

def inspection : Except StoreError (Except AdminError Report) × Engine :=
  Action.run (run {} january (.inspect ⟨⟨1⟩⟩)) doubledEngine

def listing? : Except AdminError Report →
    Option (String × Option UInt64 × List Notification × List Notification)
  | .ok (.subscriber report) =>
    some (report.month, report.watermark, report.topicMessages, report.pendingMessages)
  | _ => none

def doubledNotification : Notification :=
  { oldestNotification with channel := ⟨⟨0x01abcdef000040008000000000000000⟩⟩ }

/-- One row is stored, and the report lists it twice. -/
theorem oldest_row_listed_twice :
    doubledEngine.store.messageRows "message_2024_01" = .ok doubledRows ∧
    doubledRows.size = 1 ∧
    inspection.1.map listing? =
      .ok (some ("message_2024_01", none, [doubledNotification], [doubledNotification])) := by
  decide +kernel

theorem exists_inspection : ∃ report,
    (run {} january (.inspect ⟨⟨1⟩⟩)).Gives doubledEngine (.ok (.subscriber report))
      inspection.2.store ∧
    report.month = "message_2024_01" ∧ report.watermark = none := by
  have hlisting : inspection.1.map listing? =
      .ok (some ("message_2024_01", none, [doubledNotification], [doubledNotification])) := by
    decide +kernel
  obtain ⟨result, hresult, hlisted⟩ := map_eq_ok_iff.1 hlisting
  unfold listing? at hlisted
  split at hlisted
  next report =>
    obtain ⟨hmonth, hrest⟩ := Prod.mk.inj (Option.some.inj hlisted)
    exact ⟨report, ⟨_, Prod.ext hresult rfl, rfl⟩, hmonth, (Prod.mk.inj hrest).1⟩
  next => cases hlisted

theorem isDoubled_doubledRow : SortKey.IsDoubled doubledRow.key.sortKey :=
  ⟨'a', doubledRow.key.sortKey.toList.drop 3, 10, by decide +kernel, by decide, by decide⟩

theorem listed_twice_iff_january :
    ∃ report p rows bound,
      (run {} january (.inspect ⟨⟨1⟩⟩)).Gives doubledEngine (.ok (.subscriber report))
        inspection.2.store ∧
      Lists {} report ⟨⟨1⟩⟩ doubledEngine.store p rows bound ∧
      doubledRow ∈ topicPage rows p ({} : Settings).messages.fetchLimit.toNat ∧
      doubledRow ∈ queuePage rows p bound ({} : Settings).messages.fetchLimit.toNat := by
  obtain ⟨report, hgives, hmonth, hwatermark⟩ := exists_inspection
  obtain ⟨p, rows, bound, hlists, htwice⟩ := listed_twice_iff hgives
  obtain ⟨router, handle, hrouter, hhandle, hp, hrows⟩ := hlists.table
  have hrouter' : ({} : Settings).handle ({} : Settings).tables.router =
      .ok Router.routers.handle := rfl
  have hhandle' : Router.routers.handle.forTable "message_2024_01" = .ok januaryTable := rfl
  obtain rfl := Except.ok.inj (hrouter'.symm.trans hrouter)
  rw [hmonth] at hhandle
  obtain rfl := Except.ok.inj (hhandle'.symm.trans hhandle)
  have hrows' : doubledEngine.store.messageRows januaryTable.table = .ok doubledRows := by
    decide +kernel
  obtain rfl := Except.ok.inj (hrows'.symm.trans hrows)
  obtain ⟨htopic, hqueue⟩ := (htwice doubledRow).2 ⟨hwatermark, by decide +kernel, hp,
    isDoubled_doubledRow, by decide +kernel⟩
  exact ⟨report, p, doubledRows, bound, hgives, hlists, htopic, hqueue⟩

end Admin

end PushQueue
