import PushQueue.Proofs.Mailbox.Refinement

/-!
A batch, and its notifications stored one after another. Both go by the rows that are made of the
notifications, and a row depends neither on the table nor on the rows before it: so the batch is
refused as the first of them is, and otherwise leaves the table that they leave.
-/

namespace PushQueue.Mailbox

variable {t : TableHandle} {now : Instant} {u : SubscriberId} {e : Engine} {rows : MessageRows}
  {n : Notification} {ns : List Notification}

/-- Store notifications for one subscriber in an engine call each, up to one that is refused. -/
def storeEach (t : TableHandle) (now : Instant) (u : SubscriberId) :
    List Notification → Action Unit
  | [] => pure ()
  | n :: rest => do
    let _ ← store t now { n with subscriber := u }
    storeEach t now u rest

def Accepts (t : TableHandle) (now : Instant) (e : Engine) (n : Notification) : Prop :=
  ∃ key, (Action.run (store t now n) e).1 = .ok key

def rowsFor (t : TableHandle) (now : Instant) (u : SubscriberId) (ns : List Notification) :
    Except StoreError (List MessageRow) :=
  ns.mapM fun n => (rowFor t now (t.partition u) n).map Prod.snd

section Readings

/-- The notification with a reading of the clock as its position, if it has no place of its own. -/
def queuedAt (reading : Instant) (n : Notification) : Notification :=
  if n.topic.isNone && n.position.isNone then { n with position := some reading.millis } else n

/-- A store that reads the clock once more for the position. -/
def storeRead (t : TableHandle) (now reading : Instant) (n : Notification) : Action SortKey :=
  .tracked .storeMessage do
    let key ← Action.ofExcept (keyFor reading n)
    Action.call (Store.putRow t.table (rowUnder t now (t.partition n.subscriber) n key))
    return key

/-- A batch that reads the clock once more for the position of each notification. -/
def storeAllRead (t : TableHandle) (now : Instant) (u : SubscriberId)
    (ns : List (Instant × Notification)) : Action Unit :=
  .tracked .storeMessages do
    let rows ← Action.ofExcept
      (ns.mapM fun n => (keyFor n.1 n.2).map (rowUnder t now (t.partition u) n.2))
    Action.call (Store.putRows t.table rows)

theorem keyFor_queuedAt (now reading : Instant) (n : Notification) :
    keyFor now (queuedAt reading n) = keyFor reading n := by
  obtain ⟨_, _, _, _, _, _, position, topic, _, _, _, legacy⟩ := n
  cases topic <;> cases position <;> cases legacy <;> rfl

theorem rowUnder_queuedAt (t : TableHandle) (now reading : Instant) (p : String) (n : Notification)
    (key : SortKey) : rowUnder t now p (queuedAt reading n) key = rowUnder t now p n key := by
  unfold queuedAt
  split <;> rfl

theorem subscriber_queuedAt (reading : Instant) (n : Notification) :
    (queuedAt reading n).subscriber = n.subscriber := by
  unfold queuedAt
  split <;> rfl

/-- To read the clock for a position is to store with that position. -/
theorem store_queuedAt (t : TableHandle) (now reading : Instant) (n : Notification) :
    store t now (queuedAt reading n) = storeRead t now reading n := by
  unfold store storeRead rowFor
  rw [keyFor_queuedAt, subscriber_queuedAt]
  cases keyFor reading n with
  | error error => rfl
  | ok key =>
    simp only [Except.map, rowUnder_queuedAt]
    rfl

theorem storeAll_queuedAt (t : TableHandle) (now : Instant) (u : SubscriberId)
    (ns : List (Instant × Notification)) :
    storeAll t now u (ns.map fun n => queuedAt n.1 n.2) = storeAllRead t now u ns := by
  have hrow (n : Instant × Notification) :
      (rowFor t now (t.partition u) (queuedAt n.1 n.2)).map Prod.snd =
        (keyFor n.1 n.2).map (rowUnder t now (t.partition u) n.2) := by
    rw [rowFor, keyFor_queuedAt]
    cases keyFor n.1 n.2 with
    | error error => rfl
    | ok key => exact congrArg Except.ok (rowUnder_queuedAt t now n.1 _ n.2 key)
  unfold storeAll storeAllRead
  rw [List.mapM_map]
  simp only [Function.comp_def, hrow]

end Readings

section Single

theorem run_store_of_row {key : SortKey} {row : MessageRow}
    (hrows : e.store.messageRows t.table = .ok rows) (hfault : e.fault = none)
    (hrow : rowFor t now (t.partition n.subscriber) n = .ok (key, row)) :
    ∃ e', Action.run (store t now n) e = (.ok key, e') ∧ e'.fault = none ∧
      e'.store = e.store.setTable t.table (.messages (rows.insert row.key row.content)) := by
  have hwrite : Action.run (Action.call (Store.putRow t.table row)) e = (.ok (), { e with
      store := e.store.setTable t.table (.messages (rows.insert row.key row.content)) }) :=
    Action.run_call_of_ok hfault (Store.updateMessages_eq hrows _)
  have hact : Action.run (Action.ofExcept (rowFor t now (t.partition n.subscriber) n) >>=
      fun made => Action.call (Store.putRow t.table made.2) >>= fun _ => pure made.1) e =
      (.ok key, { e with
        store := e.store.setTable t.table (.messages (rows.insert row.key row.content)) }) := by
    rw [Action.run_ofExcept_bind, hrow]
    simp only
    rw [Action.run_bind, hwrite]
    rfl
  obtain ⟨stats, hrun⟩ := Action.run_tracked hact .storeMessage
  exact ⟨_, hrun, hfault, rfl⟩

theorem run_store_of_no_row {error : StoreError}
    (hrow : rowFor t now (t.partition n.subscriber) n = .error error) :
    ∃ e', Action.run (store t now n) e = (.error error, e') := by
  refine ⟨_, Prod.ext ?_ rfl⟩
  change (Action.run (Action.ofExcept _ >>= _) e).1 = _
  rw [Action.run_ofExcept_bind, hrow]

theorem fst_run_store (hrows : e.store.messageRows t.table = .ok rows) (hfault : e.fault = none)
    (n : Notification) :
    (Action.run (store t now n) e).1 =
      (rowFor t now (t.partition n.subscriber) n).map Prod.fst := by
  cases hrow : rowFor t now (t.partition n.subscriber) n with
  | ok written =>
    obtain ⟨e', hrun, -⟩ := run_store_of_row hrows hfault hrow
    rw [hrun]
    rfl
  | error error =>
    obtain ⟨e', hrun⟩ := run_store_of_no_row hrow
    rw [hrun]
    rfl

theorem exists_row_of_accepts (hrows : e.store.messageRows t.table = .ok rows)
    (hfault : e.fault = none) (h : Accepts t now e { n with subscriber := u }) :
    ∃ row, (rowFor t now (t.partition u) n).map Prod.snd = .ok row := by
  obtain ⟨key, hkey⟩ := h
  rw [fst_run_store hrows hfault, rowFor_subscriber] at hkey
  obtain ⟨⟨_, row⟩, hrow, -⟩ := map_eq_ok_iff.1 hkey
  exact ⟨row, map_eq_ok_iff.2 ⟨_, hrow, rfl⟩⟩

theorem no_row_of_refused {error : StoreError} (hrows : e.store.messageRows t.table = .ok rows)
    (hfault : e.fault = none)
    (h : (Action.run (store t now { n with subscriber := u }) e).1 = .error error) :
    (rowFor t now (t.partition u) n).map Prod.snd = .error error := by
  rw [fst_run_store hrows hfault, rowFor_subscriber] at h
  change (rowFor t now (t.partition u) n).map Prod.fst = _ at h
  cases hrow : rowFor t now (t.partition u) n with
  | ok written =>
    rw [hrow] at h
    cases h
  | error error' =>
    rw [hrow] at h
    cases h
    rfl

end Single

section Several

/-- The stores one by one end as the making of the rows does, and if all the rows could be made
the table has them, the later ones over the earlier. -/
theorem run_storeEach (hrows : e.store.messageRows t.table = .ok rows) (hfault : e.fault = none)
    (now : Instant) (u : SubscriberId) (ns : List Notification) :
    (Action.run (storeEach t now u ns) e).1 = (rowsFor t now u ns).map (fun _ => ()) ∧
    ∀ written, rowsFor t now u ns = .ok written →
      (Action.run (storeEach t now u ns) e).2.store =
        e.store.setTable t.table (.messages (insertAll rows written)) := by
  induction ns generalizing e rows with
  | nil =>
    refine ⟨rfl, fun written hwritten => ?_⟩
    cases hwritten
    exact (Store.setTable_of_table (Store.messageRows_eq_ok_iff.1 hrows)).symm
  | cons n rest ih =>
    have hrow := rowFor_subscriber t now (t.partition u) n u
    rw [storeEach, Action.run_bind, rowsFor, List.mapM_cons]
    cases hmade : rowFor t now (t.partition u) n with
    | error error =>
      obtain ⟨e', hrun⟩ := run_store_of_no_row (e := e) (n := { n with subscriber := u })
        (hrow.trans hmade)
      rw [hrun]
      exact ⟨rfl, nofun⟩
    | ok made =>
      obtain ⟨key, row⟩ := made
      obtain ⟨e', hrun, hfault', hstore'⟩ := run_store_of_row (n := { n with subscriber := u })
        hrows hfault (hrow.trans hmade)
      have hrows' : e'.store.messageRows t.table = .ok (rows.insert row.key row.content) :=
        hstore' ▸ Store.messageRows_setTable t.valid_table e.store _
      obtain ⟨hresult, hstore⟩ := ih hrows' hfault'
      rw [hrun]
      cases hothers : rowsFor t now u rest with
      | error error =>
        rw [hothers] at hresult
        rw [← rowsFor, hothers]
        exact ⟨hresult, nofun⟩
      | ok others =>
        rw [hothers] at hresult
        rw [← rowsFor, hothers]
        refine ⟨hresult, fun written hwritten => ?_⟩
        cases hwritten
        refine (hstore others hothers).trans ?_
        rw [hstore', Store.setTable_setTable]
        rfl

/-- A batch that is accepted leaves the very store that its notifications leave when they are stored
for the subscriber one after another. If one of them is refused, the batch is refused with the error
of the first such one, as they are one after another, and changes nothing. -/
theorem storeAll_agrees_with_storeEach (hrows : e.store.messageRows t.table = .ok rows)
    (hfault : e.fault = none) (now : Instant) (u : SubscriberId) (ns : List Notification) :
    ((∀ n ∈ ns, Accepts t now e { n with subscriber := u }) →
      ∃ store, (storeAll t now u ns).Gives e () store ∧ (storeEach t now u ns).Gives e () store) ∧
    ∀ before n after error, ns = before ++ n :: after →
      (∀ m ∈ before, Accepts t now e { m with subscriber := u }) →
      (Action.run (store t now { n with subscriber := u }) e).1 = .error error →
      (Action.run (storeEach t now u ns) e).1 = .error error ∧
      (Action.run (storeAll t now u ns) e).1 = .error error ∧
      (Action.run (storeAll t now u ns) e).2.store = e.store := by
  obtain ⟨hresult, hstore⟩ := run_storeEach hrows hfault now u ns
  refine ⟨fun haccepts => ?_, fun before n after error hns hbefore hrefused => ?_⟩
  · obtain ⟨written, hwritten⟩ : ∃ written, rowsFor t now u ns = .ok written :=
      exists_mapM_eq_ok fun n hn => exists_row_of_accepts hrows hfault (haccepts n hn)
    rw [hwritten] at hresult
    refine ⟨e.store.setTable t.table (.messages (insertAll rows written)), ?_, ?_⟩
    · exact gives_storeAll hrows (by simp [Engine.isBlocked, hfault]) hwritten
    · exact ⟨_, Prod.ext hresult rfl, hstore written hwritten⟩
  · have hmade : rowsFor t now u ns = .error error := by
      rw [hns]
      apply mapM_eq_error
      · exact fun m hm => exists_row_of_accepts hrows hfault (hbefore m hm)
      · exact no_row_of_refused hrows hfault hrefused
    obtain ⟨stats, hbatch⟩ : ∃ stats, Action.run (storeAll t now u ns) e =
        (.error error, { e with stats }) := by
      apply Action.run_tracked
      rw [rowsFor] at hmade
      rw [Action.run_ofExcept_bind, hmade]
    rw [hmade] at hresult
    rw [hbatch]
    exact ⟨hresult, rfl, rfl⟩

/-- Two notifications at one position, and a topic, none of them of the batch's subscriber. -/
def crowdedBatch : List Notification :=
  [queuedNotification, { queuedNotification with messageId := "n", ttl := 60 },
    { queuedNotification with position := none, topic := some "inbox" }]

def legacyNotification : Notification :=
  { queuedNotification with position := none, legacy := true }

theorem accepts_crowdedBatch :
    ∀ n ∈ crowdedBatch, Accepts januaryTable ⟨5⟩ januaryEngine { n with subscriber := ⟨⟨9⟩⟩ } := by
  simp only [crowdedBatch, List.forall_mem_cons]
  exact ⟨⟨_, rfl⟩, ⟨_, rfl⟩, ⟨_, rfl⟩, nofun⟩

/-- The later of two rows at one position is left. One notification more, and the batch is refused
as a whole. -/
theorem storeAll_agrees_with_storeEach_crowded :
    januaryEngine.store.messageRows januaryTable.table = .ok .empty ∧ januaryEngine.fault = none ∧
    (∃ store, (storeAll januaryTable ⟨5⟩ ⟨⟨9⟩⟩ crowdedBatch).Gives januaryEngine () store ∧
      (storeEach januaryTable ⟨5⟩ ⟨⟨9⟩⟩ crowdedBatch).Gives januaryEngine () store ∧
      (store.messageRows januaryTable.table).map (fun rows => rows.entries.map fun entry =>
          (entry.1, entry.2.updateId, entry.2.ttl)) =
        .ok [(⟨"00000000000000000000000000000009",
            "01:00000000-0000-0000-0000-000000000002:inbox"⟩, some "m", some 0),
          (⟨"00000000000000000000000000000009",
            "02:0000000000000000100:00000000-0000-0000-0000-000000000002"⟩, some "n", some 60)]) ∧
    (Action.run (storeAll januaryTable ⟨5⟩ ⟨⟨9⟩⟩ (crowdedBatch ++ [legacyNotification]))
        januaryEngine).1 =
      .error (.legacyWrite (legacyNotification.channel.text ++ ":m")) := by
  have hrows : januaryEngine.store.messageRows januaryTable.table = .ok .empty := by decide
  refine ⟨hrows, rfl, ?_, ?_⟩
  · obtain ⟨store, hbatch, heach⟩ :=
      (storeAll_agrees_with_storeEach hrows rfl ⟨5⟩ ⟨⟨9⟩⟩ crowdedBatch).1 accepts_crowdedBatch
    have hleft : (Action.run (storeAll januaryTable ⟨5⟩ ⟨⟨9⟩⟩ crowdedBatch) januaryEngine).2.store =
        store := by
      obtain ⟨e', hrun, rfl⟩ := hbatch
      rw [hrun]
    refine ⟨store, hbatch, heach, ?_⟩
    rw [← hleft]
    decide +kernel
  · exact ((storeAll_agrees_with_storeEach hrows rfl ⟨5⟩ ⟨⟨9⟩⟩ _).2 crowdedBatch
      legacyNotification [] _ rfl accepts_crowdedBatch rfl).2.1

end Several

end PushQueue.Mailbox
