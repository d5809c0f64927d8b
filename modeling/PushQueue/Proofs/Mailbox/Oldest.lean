import PushQueue.Proofs.Mailbox.Acknowledged

/-!
Rows of the oldest layout among the others. Such a row stands wherever the text of its channel puts
it, on either side of the queue or inside it. Without a watermark one of the two reads gives it; a
reader at a watermark misses those whose channel starts with `02` and a decimal digit, and no other
row that is due.
-/

namespace PushQueue

open Text

/-- Its text comes after `02`, and before every key of the queue. -/
def Ident.isCaught (channel : ChannelId) : Bool :=
  channel.text.toList.take 2 = SortKey.timestampVersion.toList &&
    channel.text.toList[2]?.any Char.isDigit

theorem Ident.isCaught_eq {channel : ChannelId} {a b c : Nat} (h : channel.uuid.Leads a b c) :
    channel.isCaught = decide (a = 0 ∧ b = 2 ∧ c < 10) := by
  have all : ∀ a b c : Fin 16,
      (decide ([Nat.digitChar a, Nat.digitChar b] = SortKey.timestampVersion.toList) &&
        (Nat.digitChar c).isDigit) = decide (a.val = 0 ∧ b.val = 2 ∧ c.val < 10) := by
    decide +kernel
  obtain ⟨rest, hrest⟩ := h.toList_eq
  unfold isCaught Ident.text
  rw [hrest]
  exact all ⟨a, h.lt_first⟩ ⟨b, h.lt_second⟩ ⟨c, h.lt_third⟩

namespace SortKey

/-- What neither read gives to a subscriber at a watermark: what it has read, and the caught rows
of the oldest layout. -/
def isPassedOver (watermark : Option UInt64) : SortKey → Bool
  | .topic .. => false
  | .timestamped position _ => watermark.any fun w => position ≤ w
  | .legacy channel _ => watermark.isSome && channel.isCaught

section Ranges

variable {channel : ChannelId} {a b c : Nat} {watermark : Option UInt64} {key : SortKey}

theorem encode_legacy_lt_upperBound_iff (h : channel.uuid.Leads a b c) (messageId : String) :
    compareBytes (encode (.legacy channel messageId)) topicUpperBound = .lt ↔ a = 0 ∧ b < 2 := by
  have hbound : utf8 topicUpperBound = [digitByte 0, digitByte 2] := by decide
  obtain ⟨rest, hrest⟩ := utf8_encode_legacy h messageId
  rw [compareBytes_eq, hrest, hbound, List.compare_cons_cons, List.compare_cons_cons,
    compare_digitByte h.lt_first (by decide), compare_digitByte h.lt_second (by decide)]
  simp only [Ordering.then_eq_lt, Nat.compare_eq_lt, Nat.compare_eq_eq, List.compare_cons_nil,
    reduceCtorEq, and_false, or_false]
  omega

/-- The marks that the lower bounds end a version with come after the decimal digits, and before
the others. -/
theorem compare_mark_digitByte {mark : UInt8} (hmark : mark = 58 ∨ mark = 59) (h : c < 16) :
    (compare mark (digitByte c) = .lt ↔ 10 ≤ c) ∧ compare mark (digitByte c) ≠ .eq := by
  have colon : ∀ c < 16, (compare 58 (digitByte c) = .lt ↔ 10 ≤ c) ∧
      compare 58 (digitByte c) ≠ .eq := by
    decide
  have semicolon : ∀ c < 16, (compare 59 (digitByte c) = .lt ↔ 10 ≤ c) ∧
      compare 59 (digitByte c) ≠ .eq := by
    decide
  rcases hmark with rfl | rfl
  · exact colon c h
  · exact semicolon c h

theorem bound_lt_encode_legacy_iff {bound : String} {version : Nat} {mark : UInt8}
    {tail : List UInt8} (hbound : utf8 bound = digitByte 0 :: digitByte version :: mark :: tail)
    (hversion : version < 16) (hmark : mark = 58 ∨ mark = 59) (h : channel.uuid.Leads a b c)
    (messageId : String) :
    compareBytes bound (encode (.legacy channel messageId)) = .lt ↔
      0 < a ∨ a = 0 ∧ (version < b ∨ b = version ∧ 10 ≤ c) := by
  obtain ⟨hlt, hne⟩ := compare_mark_digitByte hmark h.lt_third
  obtain ⟨rest, hrest⟩ := utf8_encode_legacy h messageId
  rw [compareBytes_eq, hbound, hrest, List.compare_cons_cons, List.compare_cons_cons,
    List.compare_cons_cons, compare_digitByte (by decide) h.lt_first,
    compare_digitByte hversion h.lt_second]
  simp only [Ordering.then_eq_lt, Nat.compare_eq_lt, Nat.compare_eq_eq, hlt, hne, false_and,
    or_false]
  omega

theorem Valid.exists_place (h : key.Valid) (hlegacy : key.isLegacy = false) :
    ∃ place : Place, place.key = key := by
  cases key with
  | legacy => cases hlegacy
  | topic channel name => exact ⟨.topic channel name h, rfl⟩
  | timestamped position channel => exact ⟨.queued position channel h, rfl⟩

theorem isPassedOver_place (watermark : Option UInt64) (place : Place) :
    (!place.isQueued || place.isAfter watermark) = !place.key.isPassedOver watermark := by
  cases place with
  | topic => rfl
  | queued position channel inRange =>
    cases watermark with
    | none => rfl
    | some w =>
      change decide (w < position) = !decide (position ≤ w)
      rw [← decide_not]
      exact decide_eq_decide.2 UInt64.not_le.symm

theorem exists_mark {bound : String} (h : timestampLowerBound watermark = .ok bound) :
    ∃ (mark : UInt8) (tail : List UInt8), (mark = 58 ∨ mark = 59) ∧
      utf8 bound =
        digitByte 0 :: digitByte (if watermark.isSome then 2 else 1) :: mark :: tail := by
  cases watermark with
  | none =>
    cases h
    exact ⟨59, [], .inr rfl, by decide⟩
  | some w =>
    obtain ⟨position, -, rfl⟩ := map_eq_ok_iff.1 h
    simp only [String.append_assoc, utf8_append]
    exact ⟨58, _, .inl rfl, rfl⟩

theorem inRanges_legacy {bound : String} (h : timestampLowerBound watermark = .ok bound)
    (channel : ChannelId) (messageId : String) :
    ((KeyRange.below topicUpperBound).contains (encode (.legacy channel messageId)) ||
      (KeyRange.above bound).contains (encode (.legacy channel messageId))) =
        !isPassedOver watermark (.legacy channel messageId) := by
  -- The first three digits of the channel decide on which side of either bound it stands.
  obtain ⟨a, b, c, hleads⟩ := channel.uuid.exists_leads
  obtain ⟨mark, tail, hmark, hbound⟩ := exists_mark h
  have hupper := encode_legacy_lt_upperBound_iff hleads messageId
  have hlower := bound_lt_encode_legacy_iff hbound (by split <;> decide) hmark hleads messageId
  simp only [KeyRange.contains, isPassedOver, Ident.isCaught_eq hleads, hupper, hlower]
  cases watermark with
  | none =>
    simp only [Option.isSome_none, Bool.false_eq_true, ↓reduceIte, Bool.false_and, Bool.not_false,
      ← Bool.decide_or]
    apply decide_eq_true
    omega
  | some w =>
    simp only [Option.isSome_some, ↓reduceIte, Bool.true_and, ← decide_not, ← Bool.decide_or]
    apply decide_eq_decide.2
    omega

/-- One of the two ranges holds the key of a row if and only if it is not passed over. -/
theorem exists_ranges (h : ∀ w ∈ watermark, w ≤ maxPosition) :
    ∃ bound, timestampLowerBound watermark = .ok bound ∧ (∀ key : SortKey, key.Valid →
      ((KeyRange.below topicUpperBound).contains key.encode ||
        (KeyRange.above bound).contains key.encode) = !key.isPassedOver watermark) ∧
      (KeyRange.above bound).contains metadata = false := by
  obtain ⟨bound, hbound, hplace, hmetadata⟩ := Place.exists_lowerBound h
  refine ⟨bound, hbound, fun key hvalid => ?_, hmetadata⟩
  cases key with
  | legacy channel messageId => exact inRanges_legacy hbound channel messageId
  | topic | timestamped =>
    obtain ⟨place, hkey⟩ := hvalid.exists_place rfl
    rw [← hkey, place.contains_topicRange, hplace, isPassedOver_place]

end Ranges

end SortKey

namespace Mailbox

variable {t : TableHandle} {u : SubscriberId} {e : Engine} {rows : MessageRows} {p : String}
  {limit : Nat} {watermark : Option UInt64} {range : KeyRange} {row : MessageRow}
  {n : Notification} {messages : List Notification} {key : SortKey} {content : RowContent}

section Whole

/-- Every row of the partition but the metadata row can be read, and is under the canonical text of
a key of one of the three layouts. -/
def Whole (rows : MessageRows) (p : String) : Prop :=
  ∀ k content, rows.get? k = some content → k.partition = p → k ≠ RowKey.metadata p →
    ∃ key : SortKey, key.Valid ∧ key.encode = k.sortKey ∧ content.timestamp.isSome ∧
      (key.isLegacy = false → content.updateId.isSome)

theorem Whole.metadataLeast (h : Whole rows p) : MetadataLeast rows p := by
  intro k content hget hp
  by_cases hk : k = RowKey.metadata p
  · simp [hk]
  · obtain ⟨key, -, hencode, -⟩ := h k content hget hp hk
    obtain ⟨partition, sortKey⟩ := k
    subst hp hencode
    exact Place.compare_encode_metadata _ key

theorem exists_readRow (hvalid : key.Valid) (hencode : key.encode = row.key.sortKey)
    (htimestamp : row.content.timestamp.isSome)
    (hupdateId : key.isLegacy = false → row.content.updateId.isSome) :
    ∃ n, readRow u row = .ok n := by
  have hparse := SortKey.parse_encode hvalid.readable
  rw [hencode] at hparse
  obtain ⟨timestamp, htimestamp⟩ := Option.isSome_iff_exists.1 htimestamp
  unfold readRow
  simp only [hparse, KeyError.orStore, htimestamp, bind, Except.bind]
  cases key with
  | legacy channel messageId => exact ⟨_, rfl⟩
  | topic | timestamped =>
    obtain ⟨updateId, hupdateId⟩ := Option.isSome_iff_exists.1 (hupdateId rfl)
    rw [hupdateId]
    exact ⟨_, rfl⟩

theorem Whole.exists_readRow (h : Whole rows p) (hget : rows.get? row.key = some row.content)
    (hp : row.key.partition = p) (hk : row.key ≠ RowKey.metadata p) :
    ∃ n, readRow u row = .ok n := by
  obtain ⟨key, hvalid, hencode, htimestamp, hupdateId⟩ := h _ _ hget hp hk
  exact Mailbox.exists_readRow hvalid hencode htimestamp hupdateId

theorem length_select_le (rows : MessageRows) (p : String) (range : KeyRange) :
    (Store.select rows p range).length ≤ (rows.filter fun k _ => k.partition = p).size := by
  have hselect : (Store.select rows p range).length =
      ((rows.entries.filter fun entry => entry.1.partition = p).filter fun entry =>
        range.contains entry.1.sortKey).length := by
    rw [List.filter_filter]
    simp only [Store.select, SortedMap.filter, List.length_map, Bool.and_comm]
  rw [hselect]
  exact List.length_filter_le _ _

end Whole

section Given

theorem MetadataLeast.splitMetadata_select (h : MetadataLeast rows p) :
    (splitMetadata (Store.select rows p (.below SortKey.topicUpperBound))).2 =
      topicRows rows p := by
  rw [h.select_below]
  cases rows.get? (RowKey.metadata p) with
  | none => exact congrArg Prod.snd (splitMetadata_of_forall fun _ => isMetadata_topicRows)
  | some content => rfl

theorem Whole.exists_topics (h : Whole rows (t.partition u))
    (hrows : e.store.messageRows t.table = .ok rows) (hfault : e.fault = none)
    (hlimit : (rows.filter fun k _ => k.partition = t.partition u).size ≤ limit) :
    ∃ topics, (Action.run (fetch t u limit) e).1 = .ok topics ∧
      ∀ n, n ∈ topics.messages ↔ ∃ row ∈ Store.select rows (t.partition u)
        (.below SortKey.topicUpperBound), readRow u row = .ok n := by
  obtain ⟨stats, hrun⟩ := run_fetch u limit hrows hfault
  have hlength := length_select_le rows (t.partition u) (.below SortKey.topicUpperBound)
  rw [List.take_of_length_le (hlength.trans hlimit)] at hrun
  have hselect := h.metadataLeast.select_below
  rw [h.metadataLeast.splitMetadata_select] at hrun
  have hread : ∀ row ∈ topicRows rows (t.partition u), ∃ n, readRow u row = .ok n := by
    intro row hrow
    have hin : row ∈ Store.select rows (t.partition u) (.below SortKey.topicUpperBound) :=
      hselect ▸ List.mem_append_right _ hrow
    obtain ⟨hget, hp, -⟩ := Store.mem_select_iff.1 hin
    refine h.exists_readRow hget hp fun hk => ?_
    have hmetadata := isMetadata_topicRows hrow
    rw [hk] at hmetadata
    cases hmetadata
  obtain ⟨messages, hmapM⟩ := exists_mapM_eq_ok hread
  rw [hmapM] at hrun
  refine ⟨_, congrArg Prod.fst hrun, fun n => ?_⟩
  rw [hselect]
  constructor
  · intro hn
    obtain ⟨row, hrow, hread⟩ := (mem_of_mapM_eq_ok hmapM).1 hn
    exact ⟨row, List.mem_append_right _ hrow, hread⟩
  · rintro ⟨row, hrow, hread⟩
    rcases List.mem_append.1 hrow with hfirst | hrest
    · obtain ⟨content, -, rfl⟩ := Option.map_eq_some_iff.1 (Option.mem_toList.1 hfirst)
      exact absurd rfl (readRow_ne_metadata hread)
    · exact (mem_of_mapM_eq_ok hmapM).2 ⟨row, hrest, hread⟩

theorem Whole.exists_queue {bound : String} (h : Whole rows (t.partition u))
    (hrows : e.store.messageRows t.table = .ok rows) (hfault : e.fault = none)
    (hbound : SortKey.timestampLowerBound watermark = .ok bound)
    (hmetadata : (KeyRange.above bound).contains SortKey.metadata = false)
    (hlimit : (rows.filter fun k _ => k.partition = t.partition u).size ≤ limit) :
    ∃ queue, (Action.run (fetchAfter t u watermark limit) e).1 = .ok queue ∧
      ∀ n, n ∈ queue.messages ↔ ∃ row ∈ Store.select rows (t.partition u) (.above bound),
        readRow u row = .ok n := by
  obtain ⟨stats, hrun⟩ := run_fetchAfter u limit hrows hfault hbound
  have hlength := length_select_le rows (t.partition u) (.above bound)
  rw [List.take_of_length_le (hlength.trans hlimit)] at hrun
  have hread : ∀ row ∈ Store.select rows (t.partition u) (.above bound),
      ∃ n, readRow u row = .ok n := by
    intro row hrow
    obtain ⟨hget, hp, hin⟩ := Store.mem_select_iff.1 hrow
    refine h.exists_readRow hget hp fun hk => ?_
    rw [hk, RowKey.metadata, hmetadata] at hin
    cases hin
  obtain ⟨messages, hmapM⟩ := exists_mapM_eq_ok hread
  rw [hmapM] at hrun
  exact ⟨_, congrArg Prod.fst hrun, fun n => mem_of_mapM_eq_ok hmapM⟩

theorem Whole.exists_mem_select_iff (h : Whole rows (t.partition u)) (hvalid : key.Valid)
    (hget : rows.get? ⟨t.partition u, key.encode⟩ = some content)
    (hread : readRow u ⟨⟨t.partition u, key.encode⟩, content⟩ = .ok n) :
    (∃ row ∈ Store.select rows (t.partition u) range, readRow u row = .ok n) ↔
      range.contains key.encode = true := by
  constructor
  · rintro ⟨row, hrow, hread'⟩
    obtain ⟨hget', hp, hin⟩ := Store.mem_select_iff.1 hrow
    obtain ⟨key', hvalid', hencode', -⟩ := h _ _ hget' hp (readRow_ne_metadata hread')
    have hkey := (sortKey_of_readRow hread (SortKey.parse_encode hvalid.readable)).1 hvalid
    have heq := key_of_readRow hread' hp ⟨key', hvalid', hencode'⟩ hkey
    rw [heq] at hin
    exact hin
  · exact fun hin => ⟨_, Store.mem_select_iff.2 ⟨hget, rfl, hin⟩, hread⟩

/-- If all rows of a partition can be read, and the limit is no smaller than their number, both
reads succeed, and a row is given by one of them if and only if it is not passed over: a topic
always, a row of the queue if it is after the watermark, a row of the oldest layout unless there is
a watermark and its channel starts with `02` and a decimal digit. -/
theorem given_iff_not_passed_over (hrows : e.store.messageRows t.table = .ok rows)
    (hfault : e.fault = none) (hwhole : Whole rows (t.partition u))
    (hwatermark : ∀ w ∈ watermark, w ≤ SortKey.maxPosition)
    (hlimit : (rows.filter fun k _ => k.partition = t.partition u).size ≤ limit) :
    ∃ topics queue, (Action.run (fetch t u limit) e).1 = .ok topics ∧
      (Action.run (fetchAfter t u watermark limit) e).1 = .ok queue ∧
      ∀ (key : SortKey) content, key.Valid →
        rows.get? ⟨t.partition u, key.encode⟩ = some content →
        ∃ n, readRow u ⟨⟨t.partition u, key.encode⟩, content⟩ = .ok n ∧
          (n ∈ topics.messages ∨ n ∈ queue.messages ↔ key.isPassedOver watermark = false) := by
  obtain ⟨bound, hbound, hranges, hmetadata⟩ := SortKey.exists_ranges hwatermark
  obtain ⟨topics, htopics, hmemTopics⟩ := hwhole.exists_topics hrows hfault hlimit
  obtain ⟨queue, hqueue, hmemQueue⟩ := hwhole.exists_queue hrows hfault hbound hmetadata hlimit
  refine ⟨topics, queue, htopics, hqueue, fun key content hvalid hget => ?_⟩
  have hk : (⟨t.partition u, key.encode⟩ : RowKey) ≠ RowKey.metadata (t.partition u) := fun hk =>
    key.encode_ne_metadata (congrArg RowKey.sortKey hk)
  obtain ⟨n, hread⟩ : ∃ n, readRow u ⟨⟨t.partition u, key.encode⟩, content⟩ = .ok n :=
    hwhole.exists_readRow hget rfl hk
  refine ⟨n, hread, ?_⟩
  rw [hmemTopics, hmemQueue, hwhole.exists_mem_select_iff hvalid hget hread,
    hwhole.exists_mem_select_iff hvalid hget hread, ← Bool.or_eq_true, hranges key hvalid,
    Bool.not_eq_true']

def caughtKey : SortKey := .legacy ⟨⟨0x02000000000040008000000000000000⟩⟩ "m"

def caughtTable : MessageRows := oneRowTable caughtKey.encode none

def caughtEngine : Engine := oneRowEngine caughtKey.encode none

theorem whole_caughtTable : Whole caughtTable (januaryTable.partition ⟨⟨1⟩⟩) := by
  intro k content hget hp hk
  rw [caughtTable, oneRowTable, SortedMap.get?_insert] at hget
  split at hget
  next heq =>
    cases hget
    exact ⟨caughtKey, by decide, by rw [← heq], rfl, fun h => absurd h (by decide)⟩
  next =>
    rw [SortedMap.get?_empty] at hget
    cases hget

theorem given_iff_not_passed_over_january :
    caughtEngine.store.messageRows januaryTable.table = .ok caughtTable ∧
    caughtEngine.fault = none ∧ Whole caughtTable (januaryTable.partition ⟨⟨1⟩⟩) ∧
    (∀ w ∈ some 100, w ≤ SortKey.maxPosition) ∧
    (caughtTable.filter fun k _ => k.partition = januaryTable.partition ⟨⟨1⟩⟩).size ≤ 10 ∧
    caughtKey.Valid ∧ ∃ topics queue n,
      (Action.run (fetch januaryTable ⟨⟨1⟩⟩ 10) caughtEngine).1 = .ok topics ∧
      (Action.run (fetchAfter januaryTable ⟨⟨1⟩⟩ (some 100) 10) caughtEngine).1 = .ok queue ∧
      readRow ⟨⟨1⟩⟩ ⟨⟨januaryTable.partition ⟨⟨1⟩⟩, caughtKey.encode⟩, { timestamp := some 0 }⟩ =
        .ok n ∧
      (n ∈ topics.messages ∨ n ∈ queue.messages ↔ caughtKey.isPassedOver (some 100) = false) := by
  have hrows : caughtEngine.store.messageRows januaryTable.table = .ok caughtTable := by
    decide +kernel
  have hwatermark : ∀ w ∈ some 100, w ≤ SortKey.maxPosition := by
    rintro w ⟨⟩
    decide
  have hlimit : (caughtTable.filter fun k _ =>
      k.partition = januaryTable.partition ⟨⟨1⟩⟩).size ≤ 10 := by
    decide +kernel
  have hvalid : caughtKey.Valid := by decide
  have hget : caughtTable.get? ⟨januaryTable.partition ⟨⟨1⟩⟩, caughtKey.encode⟩ =
      some { timestamp := some 0 } := by
    decide +kernel
  obtain ⟨topics, queue, htopics, hqueue, hgiven⟩ :=
    given_iff_not_passed_over hrows rfl whole_caughtTable hwatermark hlimit
  obtain ⟨n, hread, hiff⟩ := hgiven caughtKey _ hvalid hget
  exact ⟨hrows, rfl, whole_caughtTable, hwatermark, hlimit, hvalid, topics, queue, n, htopics,
    hqueue, hread, hiff⟩

/-- The row is there, and a reader without a watermark is given it, but with one neither read gives
anything. -/
theorem watermark_hides_oldest_row :
    caughtTable.get? ⟨januaryTable.partition ⟨⟨1⟩⟩, caughtKey.encode⟩ =
      some { timestamp := some 0 } ∧
    (Action.run (fetchAfter januaryTable ⟨⟨1⟩⟩ none 10) caughtEngine).1 =
      .ok ⟨none, [{ oldestNotification with channel := caughtKey.channel }]⟩ ∧
    (Action.run (fetch januaryTable ⟨⟨1⟩⟩ 10) caughtEngine).1 = .ok ⟨none, []⟩ ∧
    (Action.run (fetchAfter januaryTable ⟨⟨1⟩⟩ (some 100) 10) caughtEngine).1 =
      .ok ⟨none, []⟩ := by
  decide +kernel

end Given

end Mailbox

end PushQueue
