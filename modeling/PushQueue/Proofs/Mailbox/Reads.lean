import PushQueue.Proofs.Engine
import PushQueue.Proofs.Mailbox.Backlog
import PushQueue.Proofs.Store

/-!
Range reads of a partition. Between the bounds of its two ranges a tidy partition holds the topics
and the queue of its backlog, in order; a limit cuts their rows, and the metadata row counts as one
of the first range.
-/

namespace PushQueue

namespace Mailbox

variable {t : TableHandle} {u : SubscriberId} {e : Engine} {rows : MessageRows} {p : String}
  {limit : Nat} {watermark : Option UInt64}

section Runs

theorem run_fetchAfter (u : SubscriberId) (limit : Nat) {bound : String}
    (hrows : e.store.messageRows t.table = .ok rows) (hfault : e.fault = none)
    (hbound : SortKey.timestampLowerBound watermark = .ok bound) :
    ∃ stats, Action.run (fetchAfter t u watermark limit) e =
      ((((Store.select rows (t.partition u) (.above bound)).take limit).mapM (readRow u)).map
        fun messages => ⟨lastPosition messages, messages⟩, { e with stats }) := by
  have hquery := Store.query_eq hrows (t.partition u) (.above bound) limit
  apply Action.run_tracked
  simp only [hbound, KeyError.orStore, Action.run_bind, Action.run_ofExcept,
    Action.run_read hfault, hquery]
  cases ((Store.select rows (t.partition u) (.above bound)).take limit).mapM (readRow u) <;> rfl

theorem run_fetch (u : SubscriberId) (limit : Nat)
    (hrows : e.store.messageRows t.table = .ok rows) (hfault : e.fault = none) :
    ∃ stats, Action.run (fetch t u limit) e =
      (((splitMetadata ((Store.select rows (t.partition u)
          (.below SortKey.topicUpperBound)).take limit)).2.mapM (readRow u)).map
        fun messages =>
          ⟨(splitMetadata ((Store.select rows (t.partition u)
            (.below SortKey.topicUpperBound)).take limit)).1.bind RowContent.readPosition,
            messages⟩, { e with stats }) := by
  have hquery := Store.query_eq hrows (t.partition u) (.below SortKey.topicUpperBound) limit
  apply Action.run_tracked
  simp only [Action.run_bind, Action.run_ofExcept, Action.run_read hfault, hquery]
  cases (splitMetadata ((Store.select rows (t.partition u)
    (.below SortKey.topicUpperBound)).take limit)).2.mapM (readRow u) <;> rfl

end Runs

section Tidy

theorem Tidy.entry_cases (u : SubscriberId) (h : Tidy rows p) {entry : RowKey × RowContent}
    (hentry : entry ∈ rows.entries) :
    entry.1.partition ≠ p ∨ entry.1 = RowKey.metadata p ∨
      ∃ (place : Place) (n : Notification), place.rowKey p = entry.1 ∧
        readBack u place entry.2 = some n := by
  have hget := (SortedMap.mem_entries_iff rows entry.1 entry.2).1 hentry
  by_cases hp : entry.1.partition = p
  · by_cases hk : entry.1 = RowKey.metadata p
    · exact .inr (.inl hk)
    · obtain ⟨place, hplace, -⟩ := h _ _ hget hp hk
      rw [← hplace] at hget
      obtain ⟨n, hn⟩ := h.exists_readBack hget
      exact .inr (.inr ⟨place, n, hplace, hn⟩)
  · exact .inl hp

theorem viewEntry_of_ne {entry : RowKey × RowContent}
    (h : ∀ place : Place, place.rowKey p ≠ entry.1) :
    SortedMap.viewEntry (Place.embedding p) (readBack u) entry = none := by
  cases hview : SortedMap.viewEntry (Place.embedding p) (readBack u) entry with
  | none => rfl
  | some e' => exact absurd (SortedMap.viewEntry_eq_some_iff.1 hview).1 (h e'.1)

/-- The rows of a tidy partition in a range are read as the notifications at its places, for every
test that agrees with the range on places and leaves the metadata row out. -/
theorem Tidy.map_readRow (h : Tidy rows p) (inRange : RowKey → Bool) (atPlace : Place → Bool)
    (hplace : ∀ place : Place, inRange (place.rowKey p) = atPlace place)
    (hmetadata : inRange (RowKey.metadata p) = false) :
    ((rows.entries.filter fun entry => entry.1.partition = p && inRange entry.1).map
        fun entry => readRow u ⟨entry.1, entry.2⟩) =
      (((backlog rows p u).messages.entries.filter fun e => atPlace e.1).map Prod.snd).map
        Except.ok := by
  rw [List.map_map]
  apply SortedMap.map_filter_eq_map_filter_view
  intro entry hentry
  rcases h.entry_cases u hentry with hp | hk | ⟨place, n, hk, hn⟩
  · have hview : SortedMap.viewEntry (Place.embedding p) (readBack u) entry = none :=
      viewEntry_of_ne fun place heq => hp (heq ▸ rfl)
    simp [hp, hview]
  · have hview : SortedMap.viewEntry (Place.embedding p) (readBack u) entry = none :=
      viewEntry_of_ne fun place heq => place.rowKey_ne_metadata p (heq.trans hk)
    simp [hk, hmetadata, hview]
  · have hview : SortedMap.viewEntry (Place.embedding p) (readBack u) entry = some (place, n) :=
      SortedMap.viewEntry_eq_some_iff.2 ⟨hk, hn⟩
    have hread : readRow u ⟨entry.1, entry.2⟩ = .ok n := hk ▸ readRow_of_readBack hn
    have hp : entry.1.partition = p := hk ▸ rfl
    rw [hview, hread, ← hk, hplace]
    cases hat : atPlace place <;> simp [Place.rowKey, Option.filter, hat]

theorem Tidy.map_select_above (h : Tidy rows p) {bound : String}
    (hplace : ∀ place : Place,
      (KeyRange.above bound).contains place.key.encode = place.isAfter watermark)
    (hmetadata : (KeyRange.above bound).contains SortKey.metadata = false) :
    (Store.select rows p (.above bound)).map (readRow u) =
      ((backlog rows p u).queue watermark).map Except.ok := by
  unfold Store.select
  rw [List.map_map]
  exact h.map_readRow (fun k => (KeyRange.above bound).contains k.sortKey)
    (fun place => place.isAfter watermark) hplace hmetadata

def isTopicKey (p : String) (k : RowKey) : Bool :=
  (KeyRange.below SortKey.topicUpperBound).contains k.sortKey && decide (k ≠ RowKey.metadata p)

def topicRows (rows : MessageRows) (p : String) : List MessageRow :=
  (rows.entries.filter fun entry => entry.1.partition = p && isTopicKey p entry.1).map
    fun entry => ⟨entry.1, entry.2⟩

theorem Tidy.map_topicRows (h : Tidy rows p) :
    (topicRows rows p).map (readRow u) = (backlog rows p u).topics.map Except.ok := by
  unfold topicRows
  rw [List.map_map]
  refine h.map_readRow (isTopicKey p) (fun place => !place.isQueued) ?_ ?_
  · intro place
    have hne : place.rowKey p ≠ RowKey.metadata p := place.rowKey_ne_metadata p
    simp only [isTopicKey, hne, ne_eq, not_false_eq_true, decide_true, Bool.and_true]
    exact place.contains_topicRange
  · simp [isTopicKey]

theorem isMetadata_topicRows {row : MessageRow} (hrow : row ∈ topicRows rows p) :
    row.key.isMetadata = false := by
  obtain ⟨entry, hentry, rfl⟩ := List.mem_map.1 hrow
  obtain ⟨-, hkey⟩ := List.mem_filter.1 hentry
  simp only [isTopicKey, Bool.and_eq_true, decide_eq_true_eq] at hkey
  obtain ⟨rfl, -, hne⟩ := hkey
  exact decide_eq_false fun hsort => hne (by rw [RowKey.metadata, ← hsort])

def MetadataLeast (rows : MessageRows) (p : String) : Prop :=
  ∀ k content, rows.get? k = some content → k.partition = p → compare k (RowKey.metadata p) ≠ .lt

theorem Tidy.metadataLeast (h : Tidy rows p) : MetadataLeast rows p := by
  intro k content hget hp
  by_cases hk : k = RowKey.metadata p
  · simp [hk]
  · obtain ⟨place, rfl, -⟩ := h k content hget hp hk
    exact Place.compare_encode_metadata p place.key

theorem MetadataLeast.select_below (h : MetadataLeast rows p) :
    Store.select rows p (.below SortKey.topicUpperBound) =
      ((rows.get? (RowKey.metadata p)).map fun content =>
        MessageRow.mk (RowKey.metadata p) content).toList ++ topicRows rows p := by
  let selected : MessageRows := rows.filter fun k _ =>
    k.partition = p && (KeyRange.below SortKey.topicUpperBound).contains k.sortKey
  have hselect : Store.select rows p (.below SortKey.topicUpperBound) =
      selected.entries.map fun entry => ⟨entry.1, entry.2⟩ := rfl
  have hmetadata : selected.get? (RowKey.metadata p) = rows.get? (RowKey.metadata p) := by
    have hin : (KeyRange.below SortKey.topicUpperBound).contains (RowKey.metadata p).sortKey =
        true := Place.contains_topicRange_metadata
    rw [SortedMap.get?_filter]
    simp only [hin, Bool.and_true]
    cases rows.get? (RowKey.metadata p) <;> simp [Option.filter, RowKey.metadata]
  have hrest : topicRows rows p = (selected.erase (RowKey.metadata p)).entries.map
      fun entry => ⟨entry.1, entry.2⟩ := by
    simp only [topicRows, isTopicKey, selected, SortedMap.erase, SortedMap.filter,
      List.filter_filter]
    congr 1
    apply List.filter_congr
    intro entry _
    rw [← Bool.and_assoc, Bool.and_comm]
  rw [hselect, hrest, ← hmetadata]
  cases hget : selected.get? (RowKey.metadata p) with
  | none =>
    rw [SortedMap.erase_of_get?_eq_none selected hget]
    rfl
  | some content =>
    have hleast : ∀ entry ∈ selected.entries, compare entry.1 (RowKey.metadata p) ≠ .lt := by
      intro entry hentry
      obtain ⟨hentry, hin⟩ := List.mem_filter.1 hentry
      have hp := of_decide_eq_true (Bool.and_eq_true_iff.1 hin).1
      exact h entry.1 entry.2 ((SortedMap.mem_entries_iff rows _ _).1 hentry) hp
    rw [SortedMap.entries_eq_cons_erase selected hget hleast]
    rfl

theorem splitMetadata_of_forall {rows : List MessageRow}
    (h : ∀ row ∈ rows, row.key.isMetadata = false) : splitMetadata rows = (none, rows) := by
  cases rows with
  | nil => rfl
  | cons row rest =>
    simp only [splitMetadata, h row List.mem_cons_self, Bool.false_eq_true, ↓reduceIte]

theorem Tidy.run_fetchAfter (h : Tidy rows (t.partition u))
    (hrows : e.store.messageRows t.table = .ok rows) (hfault : e.fault = none)
    (hwatermark : ∀ w ∈ watermark, w ≤ SortKey.maxPosition) (limit : Nat) :
    ∃ stats, Action.run (fetchAfter t u watermark limit) e =
      (.ok ⟨lastPosition (((backlog rows (t.partition u) u).queue watermark).take limit),
        ((backlog rows (t.partition u) u).queue watermark).take limit⟩, { e with stats }) := by
  obtain ⟨bound, hbound, hplace, hmetadata⟩ := Place.exists_lowerBound hwatermark
  obtain ⟨stats, hrun⟩ := Mailbox.run_fetchAfter u limit hrows hfault hbound
  rw [mapM_take_eq_ok (h.map_select_above hplace hmetadata)] at hrun
  exact ⟨stats, hrun⟩

theorem Tidy.run_fetch (h : Tidy rows (t.partition u))
    (hrows : e.store.messageRows t.table = .ok rows) (hfault : e.fault = none) (limit : Nat) :
    ∃ stats, Action.run (fetch t u limit) e =
      (.ok ⟨if limit = 0 then none else (backlog rows (t.partition u) u).readPosition,
        (backlog rows (t.partition u) u).topics.take
          (if (backlog rows (t.partition u) u).hasProfile then limit - 1 else limit)⟩,
        { e with stats }) := by
  obtain ⟨stats, hrun⟩ := Mailbox.run_fetch u limit hrows hfault
  have hread := h.map_topicRows (u := u)
  refine ⟨stats, hrun.trans ?_⟩
  rw [h.metadataLeast.select_below]
  unfold backlog at hread ⊢
  cases hget : rows.get? (RowKey.metadata (t.partition u)) with
  | none =>
    have hsplit : splitMetadata ((topicRows rows (t.partition u)).take limit) =
        (none, (topicRows rows (t.partition u)).take limit) :=
      splitMetadata_of_forall fun row hrow => isMetadata_topicRows (List.mem_of_mem_take hrow)
    simp only [Option.map_none, Option.toList_none, List.nil_append, hsplit, SortedMap.contains,
      hget, Option.isSome_none, Bool.false_eq_true, ↓reduceIte, mapM_take_eq_ok hread]
    simp [Except.map]
  | some content =>
    cases limit with
    | zero => simp [splitMetadata, Except.map, pure, Except.pure]
    | succ limit =>
      have hsplit : splitMetadata
          (⟨RowKey.metadata (t.partition u), content⟩ ::
            (topicRows rows (t.partition u)).take limit) =
              (some content, (topicRows rows (t.partition u)).take limit) := by
        simp [splitMetadata, RowKey.isMetadata, RowKey.metadata]
      simp only [Option.map_some, Option.toList_some, List.cons_append, List.nil_append,
        List.take_succ_cons, hsplit, SortedMap.contains, hget, Option.isSome_some, ↓reduceIte,
        Nat.add_one_sub_one, mapM_take_eq_ok hread]
      simp [Except.map]

/-- What every read of the queue gives whose limit is large enough. -/
def IsFullRead (t : TableHandle) (u : SubscriberId) (watermark : Option UInt64) (e : Engine)
    (messages : List Notification) : Prop :=
  ∃ bound, ∀ limit ≥ bound,
    (Action.run (fetchAfter t u watermark limit) { e with fault := none }).1 =
      .ok ⟨lastPosition messages, messages⟩

theorem IsFullRead.unique {messages messages' : List Notification}
    (h : IsFullRead t u watermark e messages) (h' : IsFullRead t u watermark e messages') :
    messages = messages' := by
  obtain ⟨bound, hread⟩ := h
  obtain ⟨bound', hread'⟩ := h'
  have heq := hread (max bound bound') (Nat.le_max_left _ _)
  rw [hread' (max bound bound') (Nat.le_max_right _ _)] at heq
  exact (congrArg Page.messages (Except.ok.inj heq)).symm

theorem Tidy.isFullRead (h : Tidy rows (t.partition u))
    (hrows : e.store.messageRows t.table = .ok rows)
    (hwatermark : ∀ w ∈ watermark, w ≤ SortKey.maxPosition) :
    IsFullRead t u watermark e ((backlog rows (t.partition u) u).queue watermark) := by
  refine ⟨((backlog rows (t.partition u) u).queue watermark).length, fun limit hlimit => ?_⟩
  obtain ⟨stats, hrun⟩ :=
    h.run_fetchAfter (e := { e with fault := none }) hrows rfl hwatermark limit
  rw [hrun, List.take_of_length_le hlimit]

end Tidy

end Mailbox

end PushQueue
