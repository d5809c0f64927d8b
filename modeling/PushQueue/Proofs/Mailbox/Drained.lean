import PushQueue.Proofs.Mailbox.Acknowledged

/-!
Emptying the topics. A connecting subscriber is told that no topics are left exactly when none are,
or when its metadata row alone fills the limit; short of that, a subscriber that asks again and
deletes what it is given until it is told so has been given every topic.
-/

namespace PushQueue.Mailbox

variable {t : TableHandle} {u : SubscriberId} {e e' : Engine} {rows rows' : MessageRows}
  {p : String} {limit : Nat} {watermark : Option UInt64} {store : Store} {n : Notification}
  {ns received : List Notification} {k : RowKey} {content : RowContent}

section Checks

theorem fetch_of_gives {page : Page} (h : (fetch t u limit).Gives e page store) :
    store = e.store ∧ ∃ rows, e.store.messageRows t.table = .ok rows ∧
      (splitMetadata ((Store.select rows (t.partition u)
        (.below SortKey.topicUpperBound)).take limit)).2.mapM (readRow u) = .ok page.messages := by
  obtain ⟨read, e₁, hread, hrest⟩ := h.of_tracked.of_bind
  obtain ⟨hquery, hstore⟩ := hread.of_read
  obtain ⟨rows, hrows, rfl⟩ := map_eq_ok_iff.1 hquery
  obtain ⟨messages, hdecoded, hpage⟩ := hrest.of_ofExcept_bind
  obtain ⟨rfl, rfl⟩ := hpage.of_pure
  exact ⟨hstore, rows, hrows, hdecoded⟩

theorem fetchAfter_of_gives {page : Page}
    (h : (fetchAfter t u watermark limit).Gives e page store) : store = e.store := by
  obtain ⟨bound, -, hrest⟩ := h.of_tracked.of_ofExcept_bind
  obtain ⟨read, e₁, hread, hrest⟩ := hrest.of_bind
  obtain ⟨-, hstore⟩ := hread.of_read
  obtain ⟨messages, -, hpage⟩ := hrest.of_ofExcept_bind
  obtain ⟨-, rfl⟩ := hpage.of_pure
  exact hstore

theorem check_of_gives {delivery : Delivery}
    (h : (check t u true watermark limit).Gives e delivery store) :
    store = e.store ∧ ∃ rows topics, e.store.messageRows t.table = .ok rows ∧
      (splitMetadata ((Store.select rows (t.partition u)
        (.below SortKey.topicUpperBound)).take limit)).2.mapM (readRow u) = .ok topics ∧
      delivery.fromTopics = !topics.isEmpty ∧
      (delivery.fromTopics = true → delivery.messages = topics) := by
  unfold check at h
  simp only [↓reduceIte] at h
  obtain ⟨topics, e₁, htopics, hrest⟩ := h.of_bind
  obtain ⟨hstore, rows, hrows, hdecoded⟩ := fetch_of_gives htopics
  cases hempty : topics.messages.isEmpty with
  | true =>
    rw [hempty] at hrest
    obtain ⟨page, hpage, rfl⟩ := Action.Gives.of_bind_pure hrest
    exact ⟨(fetchAfter_of_gives hpage).trans hstore, rows, _, hrows, hdecoded, by simp [hempty],
      nofun⟩
  | false =>
    rw [hempty] at hrest
    obtain ⟨rfl, rfl⟩ := Action.Gives.of_pure hrest
    exact ⟨hstore, rows, _, hrows, hdecoded, by simp [hempty], fun _ => rfl⟩

end Checks

section Pages

def Drained (rows : MessageRows) (p : String) : Prop :=
  ∀ k content, rows.get? k = some content → k.partition = p →
    Text.compareBytes k.sortKey SortKey.topicUpperBound = .lt → k = RowKey.metadata p

def LedByMetadata (rows : MessageRows) (p : String) : Prop :=
  rows.contains (RowKey.metadata p) = true ∧ MetadataLeast rows p

theorem mem_select_below {row : MessageRow} :
    row ∈ Store.select rows p (.below SortKey.topicUpperBound) ↔
      rows.get? row.key = some row.content ∧ row.key.partition = p ∧
        Text.compareBytes row.key.sortKey SortKey.topicUpperBound = .lt := by
  rw [Store.mem_select_iff, KeyRange.contains, decide_eq_true_iff]

theorem isMetadata_iff (h : k.partition = p) : k.isMetadata = true ↔ k = RowKey.metadata p := by
  subst h
  obtain ⟨partition, sortKey⟩ := k
  simp [RowKey.isMetadata, RowKey.metadata]

theorem splitMetadata_take_eq_nil_iff {l : List MessageRow} (hlimit : 1 ≤ limit) :
    (splitMetadata (l.take limit)).2 = [] ↔
      l = [] ∨ ∃ first rest, l = first :: rest ∧ first.key.isMetadata = true ∧
        (rest = [] ∨ limit = 1) := by
  obtain ⟨limit, rfl⟩ : ∃ m, limit = m + 1 := ⟨limit - 1, by omega⟩
  cases l with
  | nil => simp [splitMetadata]
  | cons first rest =>
    cases hfirst : first.key.isMetadata with
    | true => simp [splitMetadata, hfirst, or_comm]
    | false => simp [splitMetadata, hfirst]

theorem Drained.rest_eq_nil {first : MessageRow} {rest : List MessageRow} (h : Drained rows p)
    (hl : Store.select rows p (.below SortKey.topicUpperBound) = first :: rest) :
    first.key = RowKey.metadata p ∧ rest = [] := by
  have hkey : ∀ row ∈ first :: rest, row.key = RowKey.metadata p := by
    intro row hrow
    rw [← hl, mem_select_below] at hrow
    exact h _ _ hrow.1 hrow.2.1 hrow.2.2
  have hfirst := hkey first List.mem_cons_self
  refine ⟨hfirst, List.eq_nil_iff_forall_not_mem.2 fun row hrow => ?_⟩
  have hsorted := Store.pairwise_select rows p (.below SortKey.topicUpperBound)
  rw [hl] at hsorted
  have hlt := (List.pairwise_cons.1 hsorted).1 row hrow
  rw [hfirst, hkey row (List.mem_cons_of_mem _ hrow)] at hlt
  simp at hlt

theorem ledByMetadata_of_select {first : MessageRow} {rest : List MessageRow}
    (hl : Store.select rows p (.below SortKey.topicUpperBound) = first :: rest)
    (hfirst : first.key = RowKey.metadata p) : LedByMetadata rows p := by
  have hmem : first ∈ Store.select rows p (.below SortKey.topicUpperBound) := by simp [hl]
  have hget := (mem_select_below.1 hmem).1
  rw [hfirst] at hget
  refine ⟨by simp [SortedMap.contains, hget], fun k content hk hp hlt => ?_⟩
  -- A row before the metadata row would be in the range too, ahead of its first row.
  have hbelow : Text.compareBytes k.sortKey SortKey.topicUpperBound = .lt := by
    rw [RowKey.metadata, ← hp, RowKey.compare_mk] at hlt
    exact Std.TransCmp.lt_trans hlt SortKey.compareBytes_metadata_upperBound
  have hrow : (⟨k, content⟩ : MessageRow) ∈ first :: rest := by
    rw [← hl]
    exact mem_select_below.2 ⟨hk, hp, hbelow⟩
  have hsorted := Store.pairwise_select rows p (.below SortKey.topicUpperBound)
  rw [hl] at hsorted
  rcases List.mem_cons.1 hrow with heq | hrest
  · rw [← hfirst, ← heq] at hlt
    simp at hlt
  · have hgt := (List.pairwise_cons.1 hsorted).1 _ hrest
    rw [hfirst] at hgt
    exact absurd (Std.TransCmp.lt_trans hlt hgt) (by simp)

/-- A page of topics is empty if none are left, or if the metadata row takes the only place. -/
theorem topics_eq_nil_iff (hlimit : 1 ≤ limit) :
    (splitMetadata ((Store.select rows p (.below SortKey.topicUpperBound)).take limit)).2 = [] ↔
      Drained rows p ∨ limit = 1 ∧ LedByMetadata rows p := by
  rw [splitMetadata_take_eq_nil_iff hlimit]
  constructor
  · rintro (hnil | ⟨first, rest, hl, hmetadata, hrest⟩)
    · refine .inl fun k content hget hp hlt => ?_
      have hrow : (⟨k, content⟩ : MessageRow) ∈ [] := hnil ▸ mem_select_below.2 ⟨hget, hp, hlt⟩
      cases hrow
    · have hmem : first ∈ Store.select rows p (.below SortKey.topicUpperBound) := by simp [hl]
      have hfirst := (isMetadata_iff (mem_select_below.1 hmem).2.1).1 hmetadata
      rcases hrest with rfl | rfl
      · refine .inl fun k content hget hp hlt => ?_
        have hrow : (⟨k, content⟩ : MessageRow) ∈ [first] :=
          hl ▸ mem_select_below.2 ⟨hget, hp, hlt⟩
        rw [← hfirst, ← List.mem_singleton.1 hrow]
      · exact .inr ⟨rfl, ledByMetadata_of_select hl hfirst⟩
  · rintro (hdrained | ⟨rfl, hcontains, hleast⟩)
    · cases hl : Store.select rows p (.below SortKey.topicUpperBound) with
      | nil => exact .inl rfl
      | cons first rest =>
        obtain ⟨hfirst, rfl⟩ := hdrained.rest_eq_nil hl
        exact .inr ⟨first, [], rfl, by rw [hfirst]; rfl, .inl rfl⟩
    · obtain ⟨content, hget⟩ := Option.isSome_iff_exists.1 hcontains
      rw [hleast.select_below, hget]
      exact .inr ⟨_, _, rfl, rfl, .inr rfl⟩

end Pages

section Deletes

/-- Some rows are gone, each of them by its key, which was built from one of these notifications. -/
structure Thinned (t : TableHandle) (ns : List Notification) (rows rows' : MessageRows) :
    Prop where
  kept : ∀ k content, rows'.get? k = some content → rows.get? k = some content
  gone : ∀ k content, rows.get? k = some content → rows'.get? k = some content ∨
    ∃ n ∈ ns, ∃ key, n.sortKey = .ok key ∧ k = ⟨t.partition n.subscriber, key.encode⟩

theorem Thinned.refl (t : TableHandle) (ns : List Notification) (rows : MessageRows) :
    Thinned t ns rows rows :=
  ⟨fun _ _ h => h, fun _ _ h => .inl h⟩

theorem thinned_deleted {key : SortKey} (hkey : n.sortKey = .ok key) (rows : MessageRows) :
    Thinned t [n] rows
      (deleted rows ⟨t.partition n.subscriber, key.encode⟩ n.updateId).2 := by
  refine ⟨fun _ _ hget => get?_of_get?_deleted hget, fun k content hget => ?_⟩
  by_cases hk : (⟨t.partition n.subscriber, key.encode⟩ : RowKey) = k
  · exact .inr ⟨n, List.mem_singleton_self n, key, hkey, hk.symm⟩
  · exact .inl ((get?_deleted_of_ne hk n.updateId).trans hget)

theorem thinned_delete (hrows : e.store.messageRows t.table = .ok rows) (n : Notification) :
    ∃ rows', (Action.run (delete t n) e).2.store.messageRows t.table = .ok rows' ∧
      Thinned t [n] rows rows' := by
  have hrefused (h : (delete t n).Refuses e) :
      ∃ rows', (Action.run (delete t n) e).2.store.messageRows t.table = .ok rows' ∧
        Thinned t [n] rows rows' := by
    obtain ⟨error, e', hrun, hstore⟩ := h
    exact ⟨rows, by rw [hrun, hstore, hrows], .refl t [n] rows⟩
  cases hkey : n.sortKey with
  | error reason =>
    apply hrefused
    apply Action.Refuses.tracked
    apply Action.Refuses.ofExcept_bind
    intro key hok
    rw [orStore_eq_ok_iff.1 hok] at hkey
    cases hkey
  | ok key =>
    cases hblocked : e.isBlocked with
    | true =>
      apply hrefused
      apply Action.Refuses.tracked
      apply Action.Refuses.ofExcept_bind
      exact fun _ _ => Action.refuses_call hblocked _
    | false =>
      obtain ⟨e', hrun, hstore⟩ := gives_delete hrows hblocked hkey
      refine ⟨_, ?_, thinned_deleted hkey rows⟩
      rw [hrun, hstore]
      exact Store.messageRows_setTable t.valid_table _ _

def deleteAll (t : TableHandle) (e : Engine) (ns : List Notification) : Engine :=
  e.after (fun e n => (Action.run (delete t n) e).2) ns

theorem thinned_deleteAll (hrows : e.store.messageRows t.table = .ok rows)
    (ns : List Notification) :
    ∃ rows', (deleteAll t e ns).store.messageRows t.table = .ok rows' ∧
      Thinned t ns rows rows' := by
  refine Engine.holds_after (P := fun e' => ∃ rows', e'.store.messageRows t.table = .ok rows' ∧
    Thinned t ns rows rows') ⟨rows, hrows, .refl t ns rows⟩ ?_
  rintro n hn e' ⟨rows₁, hrows₁, hbefore⟩
  obtain ⟨rows', hrows', hdelete⟩ := thinned_delete hrows₁ n
  refine ⟨rows', hrows', fun k content hget => hbefore.kept _ _ (hdelete.kept _ _ hget), ?_⟩
  intro k content hget
  rcases hbefore.gone k content hget with hget₁ | hgone
  · rcases hdelete.gone k content hget₁ with hget' | ⟨m, hm, hkey⟩
    · exact .inl hget'
    · exact .inr ⟨m, List.mem_singleton.1 hm ▸ hn, hkey⟩
  · exact .inr hgone

theorem Thinned.get?_of_not_isCanonical (h : Thinned t ns rows rows')
    (hget : rows.get? k = some content) (hk : ¬ SortKey.IsCanonical k.sortKey) :
    rows'.get? k = some content := by
  rcases h.gone k content hget with hget' | ⟨n, -, key, hkey, rfl⟩
  · exact hget'
  · exact absurd ⟨key, valid_of_sortKey hkey, rfl⟩ hk

end Deletes

section Draining

theorem fromTopics_eq_false_iff {delivery : Delivery} (hlimit : 1 ≤ limit)
    (hrows : e.store.messageRows t.table = .ok rows)
    (h : Action.run (check t u true watermark limit) e = (.ok delivery, e')) :
    delivery.fromTopics = false ↔
      Drained rows (t.partition u) ∨ limit = 1 ∧ LedByMetadata rows (t.partition u) := by
  obtain ⟨-, rows', topics, hrows', hdecoded, htopics, -⟩ := check_of_gives ⟨e', h, rfl⟩
  rw [hrows] at hrows'
  cases hrows'
  rw [← topics_eq_nil_iff hlimit, htopics, Bool.not_eq_false', List.isEmpty_iff]
  have hmap := map_eq_of_mapM_eq_ok hdecoded
  constructor
  · rintro rfl
    exact List.map_eq_nil_iff.1 hmap
  · intro hnil
    rw [hnil] at hmap
    exact List.map_eq_nil_iff.1 hmap.symm

/-- A subscriber asks for topics and deletes what it is given, again and again, until it is told
that none are left; along with all that it was given. -/
inductive Drains (t : TableHandle) (u : SubscriberId) (limit : Nat) :
    Engine → List Notification → Prop
  | last {e e' : Engine} {watermark : Option UInt64} {delivery : Delivery}
      (hcheck : Action.run (check t u true watermark limit) e = (.ok delivery, e'))
      (hlast : delivery.fromTopics = false) : Drains t u limit e []
  | more {e e' : Engine} {watermark : Option UInt64} {delivery : Delivery}
      {received : List Notification}
      (hcheck : Action.run (check t u true watermark limit) e = (.ok delivery, e'))
      (htopics : delivery.fromTopics = true)
      (hrest : Drains t u limit (deleteAll t e' delivery.messages) received) :
      Drains t u limit e (delivery.messages ++ received)

theorem exists_rows_of_more {delivery : Delivery} (hrows : e.store.messageRows t.table = .ok rows)
    (hcheck : Action.run (check t u true watermark limit) e = (.ok delivery, e'))
    (htopics : delivery.fromTopics = true) :
    (∀ n ∈ delivery.messages, ∃ row ∈ Store.select rows (t.partition u)
      (.below SortKey.topicUpperBound), readRow u row = .ok n) ∧
    ∃ rows', (deleteAll t e' delivery.messages).store.messageRows t.table = .ok rows' ∧
      Thinned t delivery.messages rows rows' := by
  obtain ⟨hstore, rows₁, topics, hrows₁, hdecoded, -, hmessages⟩ :=
    check_of_gives ⟨e', hcheck, rfl⟩
  rw [hrows] at hrows₁
  cases hrows₁
  constructor
  · intro n hn
    rw [hmessages htopics, mem_of_mapM_eq_ok hdecoded] at hn
    obtain ⟨row, hrow, hread⟩ := hn
    exact ⟨row, List.mem_of_mem_take (mem_splitMetadata hrow), hread⟩
  · rw [← hstore] at hrows
    exact thinned_deleteAll hrows _

def HasRoom (limit : Nat) (rows : MessageRows) (p : String) : Prop :=
  limit = 1 → rows.get? (RowKey.metadata p) = none

theorem Thinned.hasRoom (h : Thinned t ns rows rows') (hroom : HasRoom limit rows p) :
    HasRoom limit rows' p := by
  intro hone
  cases hget : rows'.get? (RowKey.metadata p) with
  | none => rfl
  | some content =>
    have hbefore := h.kept _ _ hget
    rw [hroom hone] at hbefore
    cases hbefore

theorem drained_of_last {delivery : Delivery} (hlimit : 1 ≤ limit)
    (hroom : HasRoom limit rows (t.partition u)) (hrows : e.store.messageRows t.table = .ok rows)
    (hcheck : Action.run (check t u true watermark limit) e = (.ok delivery, e'))
    (hlast : delivery.fromTopics = false) : Drained rows (t.partition u) := by
  rcases (fromTopics_eq_false_iff hlimit hrows hcheck).1 hlast with hdrained | ⟨hone, hled, -⟩
  · exact hdrained
  · simp [SortedMap.contains, hroom hone] at hled

/-- No row before the queue is under another spelling of its key, as it would still be there. -/
theorem Drains.isCanonical (h : Drains t u limit e received) (hlimit : 1 ≤ limit)
    (hrows : e.store.messageRows t.table = .ok rows) (hroom : HasRoom limit rows (t.partition u))
    (hget : rows.get? k = some content) (hp : k.partition = t.partition u)
    (hbelow : Text.compareBytes k.sortKey SortKey.topicUpperBound = .lt)
    (hk : k ≠ RowKey.metadata (t.partition u)) : SortKey.IsCanonical k.sortKey := by
  induction h generalizing rows with
  | last hcheck hlast =>
    exact absurd (drained_of_last hlimit hroom hrows hcheck hlast k content hget hp hbelow) hk
  | more hcheck htopics _ ih =>
    obtain ⟨-, rows', hrows', hthinned⟩ := exists_rows_of_more hrows hcheck htopics
    by_contra hnot
    exact hnot (ih hrows' (hthinned.hasRoom hroom) (hthinned.get?_of_not_isCanonical hget hnot))

theorem Drains.row_received (h : Drains t u limit e received) (hlimit : 1 ≤ limit)
    (hrows : e.store.messageRows t.table = .ok rows) (hroom : HasRoom limit rows (t.partition u))
    (hget : rows.get? k = some content) (hp : k.partition = t.partition u)
    (hbelow : Text.compareBytes k.sortKey SortKey.topicUpperBound = .lt)
    (hk : k ≠ RowKey.metadata (t.partition u)) :
    ∃ n ∈ received, readRow u ⟨k, content⟩ = .ok n := by
  induction h generalizing rows with
  | last hcheck hlast =>
    exact absurd (drained_of_last hlimit hroom hrows hcheck hlast k content hget hp hbelow) hk
  | @more e e' watermark delivery received hcheck htopics hrest ih =>
    obtain ⟨hgiven, rows', hrows', hthinned⟩ := exists_rows_of_more hrows hcheck htopics
    rcases hthinned.gone k content hget with hget' | ⟨n, hn, key, hkey, hgone⟩
    · obtain ⟨n, hn, hread⟩ := ih hrows' (hthinned.hasRoom hroom) hget'
      exact ⟨n, List.mem_append_right _ hn, hread⟩
    · -- The delete that took the row away was given a notification read from this very row.
      obtain ⟨row, hrow, hread⟩ := hgiven n hn
      obtain ⟨hrowget, hrowp, hrowbelow⟩ := mem_select_below.1 hrow
      have hcanonical := (Drains.more hcheck htopics hrest).isCanonical hlimit hrows hroom hrowget
        hrowp hrowbelow fun heq => readRow_ne_metadata hread heq
      have hkeyEq : row.key = k := by
        rw [hgone]
        exact key_of_readRow hread hrowp hcanonical hkey
      refine ⟨n, List.mem_append_left _ hn, ?_⟩
      obtain ⟨rowKey, rowContent⟩ := row
      subst hkeyEq
      rw [hget] at hrowget
      cases hrowget
      exact hread

/-- A subscriber is told that no topics are left if and only if none are, or the metadata row takes
up a limit of one. Where it does not, a subscriber that asks and deletes until it is told so has
been given the notification of every row before the queue. -/
theorem told_drained_iff (hlimit : 1 ≤ limit) (hrows : e.store.messageRows t.table = .ok rows) :
    (∀ watermark delivery e', Action.run (check t u true watermark limit) e = (.ok delivery, e') →
      (delivery.fromTopics = false ↔
        Drained rows (t.partition u) ∨ limit = 1 ∧ LedByMetadata rows (t.partition u))) ∧
    ∀ received, Drains t u limit e received → HasRoom limit rows (t.partition u) →
      ∀ k content, rows.get? k = some content → k.partition = t.partition u →
        Text.compareBytes k.sortKey SortKey.topicUpperBound = .lt →
        k ≠ RowKey.metadata (t.partition u) → ∃ n ∈ received, readRow u ⟨k, content⟩ = .ok n :=
  ⟨fun _ _ _ h => fromTopics_eq_false_iff hlimit hrows h,
    fun _ h hroom _ _ => h.row_received hlimit hrows hroom⟩

def inboxKey : RowKey :=
  ⟨januaryTable.partition ⟨⟨1⟩⟩, (SortKey.topic ⟨⟨2⟩⟩ "inbox").encode⟩

def inboxTable : MessageRows :=
  (SortedMap.empty.insert (RowKey.metadata (januaryTable.partition ⟨⟨1⟩⟩))
    { channels := some .empty }).insert inboxKey { timestamp := some 0, updateId := some "m" }

def inboxEngine : Engine where
  store := ⟨SortedMap.empty.insert januaryTable.table (.messages inboxTable)⟩

def inboxNotification : Notification where
  subscriber := ⟨⟨1⟩⟩
  channel := ⟨⟨2⟩⟩
  timestamp := 0
  topic := some "inbox"
  source := .stored
  messageId := "m"
  updateId := some "m"

theorem told_drained_iff_inbox :
    1 ≤ 2 ∧ inboxEngine.store.messageRows januaryTable.table = .ok inboxTable ∧
    Drains januaryTable ⟨⟨1⟩⟩ 2 inboxEngine [inboxNotification] ∧
    ¬ Drained inboxTable (januaryTable.partition ⟨⟨1⟩⟩) ∧
    ∃ n ∈ [inboxNotification],
      readRow ⟨⟨1⟩⟩ ⟨inboxKey, { timestamp := some 0, updateId := some "m" }⟩ = .ok n := by
  have hrows : inboxEngine.store.messageRows januaryTable.table = .ok inboxTable := by
    decide +kernel
  have hfirst : (Action.run (check januaryTable ⟨⟨1⟩⟩ true none 2) inboxEngine).1 =
      .ok ⟨true, [inboxNotification], none⟩ := by
    decide +kernel
  have hsecond : (Action.run (check januaryTable ⟨⟨1⟩⟩ true none 2)
      (deleteAll januaryTable (Action.run (check januaryTable ⟨⟨1⟩⟩ true none 2) inboxEngine).2
        [inboxNotification])).1 = .ok ⟨false, [], none⟩ := by
    decide +kernel
  have hdrains : Drains januaryTable ⟨⟨1⟩⟩ 2 inboxEngine [inboxNotification] :=
    .more (Prod.ext hfirst rfl) rfl (.last (Prod.ext hsecond rfl) rfl)
  obtain ⟨hiff, hreceived⟩ := told_drained_iff (u := ⟨⟨1⟩⟩) (Nat.le_succ 1) hrows
  refine ⟨Nat.le_succ 1, hrows, hdrains, fun hdrained => ?_, ?_⟩
  · have htold := (hiff _ _ _ (Prod.ext hfirst rfl)).2 (.inl hdrained)
    cases htold
  · exact hreceived _ hdrains (by rintro ⟨⟩) inboxKey _ (by decide +kernel) rfl (by decide +kernel)
      (by decide +kernel)

/-- With a limit of one the metadata row is all that is read, and the topic behind it is passed
over. -/
theorem check_of_one_passes_over_topic :
    (Action.run (check januaryTable ⟨⟨1⟩⟩ true none 1) inboxEngine).1 = .ok ⟨false, [], none⟩ ∧
    inboxEngine.store.messageRows januaryTable.table = .ok inboxTable ∧
    ¬ Drained inboxTable (januaryTable.partition ⟨⟨1⟩⟩) := by
  refine ⟨by decide +kernel, by decide +kernel, fun hdrained => ?_⟩
  have hget : inboxTable.get? inboxKey = some { timestamp := some 0, updateId := some "m" } := by
    decide +kernel
  have hbelow : Text.compareBytes inboxKey.sortKey SortKey.topicUpperBound = .lt := by
    decide +kernel
  have hne : inboxKey ≠ RowKey.metadata (januaryTable.partition ⟨⟨1⟩⟩) := by decide +kernel
  exact hne (hdrained inboxKey _ hget rfl hbelow)

end Draining

end PushQueue.Mailbox
