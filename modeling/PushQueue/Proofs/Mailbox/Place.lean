import PushQueue.Mailbox
import PushQueue.Proofs.Results
import PushQueue.Proofs.SortKey
import PushQueue.Proofs.SortedMap

/-!
The places of a subscriber's stored notifications: one for each channel and topic, and one for each
position and channel. They embed into the row keys of the subscriber's partition, in order.
-/

namespace PushQueue

open Text

theorem RowKey.compare_mk (partition a b : String) :
    compare (RowKey.mk partition a) (RowKey.mk partition b) = compareBytes a b := by
  have hself : compareBytes partition partition = .eq := Std.ReflCmp.compare_self
  change (compareBytes partition partition).then (compareBytes a b) = _
  rw [hself]
  rfl

inductive Place where
  | topic (channel : ChannelId) (name : String) (valid : SortKey.isSegment name = true)
  | queued (position : UInt64) (channel : ChannelId) (inRange : position ≤ SortKey.maxPosition)
deriving DecidableEq

namespace Place

def key : Place → SortKey
  | .topic channel name _ => .topic channel name
  | .queued position channel _ => .timestamped position channel

def isQueued : Place → Bool
  | .topic .. => false
  | .queued .. => true

/-- The places of the queue that a reader at a watermark has before it. -/
def isAfter (watermark : Option UInt64) : Place → Bool
  | .topic .. => false
  | .queued position .. => watermark.all fun w => w < position

theorem isAfter_spec {watermark : Option UInt64} {place : Place}
    (h : place.isAfter watermark = true) :
    ∃ position channel inRange, place = .queued position channel inRange ∧
      ∀ w ∈ watermark, w < position := by
  cases place with
  | topic => cases h
  | queued position channel inRange =>
    refine ⟨position, channel, inRange, rfl, ?_⟩
    rintro w rfl
    exact of_decide_eq_true h

def ofKey? : SortKey → Option Place
  | .topic channel name =>
    if h : SortKey.isSegment name = true then some (.topic channel name h) else none
  | .timestamped position channel =>
    if h : position ≤ SortKey.maxPosition then some (.queued position channel h) else none
  | .legacy .. => none

theorem ofKey?_eq_some_iff {key : SortKey} {place : Place} :
    ofKey? key = some place ↔ place.key = key := by
  constructor
  · intro h
    unfold ofKey? at h
    split at h
    · split at h
      · cases h
        rfl
      · cases h
    · split at h
      · cases h
        rfl
      · cases h
    · cases h
  · rintro rfl
    cases place with
    | topic channel name valid => exact dif_pos valid
    | queued position channel inRange => exact dif_pos inRange

@[simp] theorem ofKey?_key (place : Place) : ofKey? place.key = some place :=
  ofKey?_eq_some_iff.2 rfl

theorem toOption_ofTopic (channel : ChannelId) (name : String) :
    (SortKey.ofTopic channel name).toOption = (ofKey? (.topic channel name)).map key := by
  simp only [SortKey.ofTopic, ofKey?]
  by_cases h : SortKey.isSegment name = true
  · rw [if_pos h, dif_pos h]
    rfl
  · rw [if_neg h, dif_neg h]
    rfl

theorem toOption_ofPosition (channel : ChannelId) (position : UInt64) :
    (SortKey.ofPosition channel position).toOption =
      (ofKey? (.timestamped position channel)).map key := by
  simp only [SortKey.ofPosition, SortKey.checkPosition, ofKey?]
  by_cases h : position ≤ SortKey.maxPosition
  · rw [if_neg (UInt64.not_lt.2 h), dif_pos h]
    rfl
  · rw [if_pos (UInt64.not_le.1 h), dif_neg h]
    rfl

theorem key_injective {a b : Place} (h : a.key = b.key) : a = b := by
  have hb := ofKey?_key b
  rw [← h, ofKey?_key] at hb
  exact Option.some.inj hb

theorem valid_key (place : Place) : place.key.Valid := by
  cases place with
  | topic channel name valid => exact valid
  | queued position channel inRange => exact inRange

theorem isLegacy_key (place : Place) : place.key.isLegacy = false := by
  cases place <;> rfl

@[simp] theorem parse_encode_key (place : Place) :
    SortKey.parse place.key.encode = .ok place.key :=
  SortKey.parse_encode place.valid_key.readable

/-- Topics first, by channel and topic; then the queue, by position and channel. -/
instance : Ord Place :=
  ⟨compareLex (compareOn isQueued) <| compareLex (compareOn fun p => p.key.position.getD 0) <|
    compareLex (compareOn fun p => p.key.channel)
      (compareOn fun p => utf8 (p.key.topicName.getD ""))⟩

theorem compare_topic (c d : ChannelId) (a b : String) (ha hb) :
    compare (Place.topic c a ha) (Place.topic d b hb) =
      (compare c d).then (compareBytes a b) := by
  change (compare false false).then ((compare (0 : UInt64) 0).then
    ((compare c d).then (compareBytes a b))) = _
  have hzero : compare (0 : UInt64) 0 = .eq := rfl
  rw [hzero]
  rfl

theorem compare_queued (a b : UInt64) (c d : ChannelId) (ha hb) :
    compare (Place.queued a c ha) (Place.queued b d hb) = (compare a b).then (compare c d) := by
  change (compare true true).then ((compare a b).then
    ((compare c d).then (compareBytes "" ""))) = _
  have hempty : compareBytes "" "" = .eq := by decide
  rw [hempty, Ordering.then_eq]
  rfl

theorem compare_topic_queued (c d : ChannelId) (name : String) (position : UInt64) (hn hp) :
    compare (Place.topic c name hn) (Place.queued position d hp) = .lt := rfl

theorem compare_queued_topic (c d : ChannelId) (name : String) (position : UInt64) (hn hp) :
    compare (Place.queued position d hp) (Place.topic c name hn) = .gt := rfl

/-- Byte order of the stored keys is the order of the places. -/
theorem compareBytes_encode (a b : Place) :
    compareBytes a.key.encode b.key.encode = compare a b := by
  cases a with
  | topic c name hc =>
    cases b with
    | topic d name' hd =>
      rw [compare_topic]
      exact SortKey.compareBytes_encode_topic c d name name'
    | queued position d hd =>
      rw [compare_topic_queued]
      exact SortKey.compareBytes_topic_timestamped c d name position
  | queued position c hc =>
    cases b with
    | topic d name hd =>
      rw [compare_queued_topic]
      exact Std.OrientedCmp.gt_of_lt (SortKey.compareBytes_topic_timestamped d c name position)
    | queued position' d hd =>
      rw [compare_queued]
      exact SortKey.compareBytes_encode_timestamped hc hd c d

instance : Std.TransOrd Place :=
  inferInstanceAs (Std.TransCmp
    (compareLex (compareOn isQueued) <| compareLex (compareOn fun p => p.key.position.getD 0) <|
      compareLex (compareOn fun p => p.key.channel)
        (compareOn fun p => utf8 (p.key.topicName.getD ""))))

instance : Std.LawfulEqOrd Place where
  compare_self {_} := Std.ReflCmp.compare_self
  eq_of_compare {a b} h := by
    rw [← compareBytes_encode] at h
    have hencode : a.key.encode = b.key.encode := Std.LawfulEqCmp.eq_of_compare h
    exact key_injective
      (SortKey.encode_injective a.valid_key.readable b.valid_key.readable hencode)

def rowKey (partition : String) (place : Place) : RowKey := ⟨partition, place.key.encode⟩

def ofRowKey? (partition : String) (k : RowKey) : Option Place :=
  if k.partition = partition then
    (SortKey.parse k.sortKey).toOption.bind fun key =>
      (ofKey? key).filter fun place => place.key.encode = k.sortKey
  else none

theorem ofRowKey?_eq_some_iff {partition : String} {k : RowKey} {place : Place} :
    ofRowKey? partition k = some place ↔ place.rowKey partition = k := by
  unfold ofRowKey?
  constructor
  · intro h
    split at h
    next hpartition =>
      obtain ⟨key, -, hplace⟩ := Option.bind_eq_some_iff.1 h
      obtain ⟨-, hencode⟩ := Option.filter_eq_some_iff.1 hplace
      have hencode : place.key.encode = k.sortKey := by simpa using hencode
      simp [rowKey, hencode, ← hpartition]
    next => cases h
  · rintro rfl
    simp [rowKey, Except.toOption]

def embedding (partition : String) : KeyEmbedding Place RowKey where
  key := rowKey partition
  back := ofRowKey? partition
  back_eq_some_iff := ofRowKey?_eq_some_iff
  compare_key a b := (RowKey.compare_mk partition _ _).trans (compareBytes_encode a b)

theorem rowKey_ne_metadata (partition : String) (place : Place) :
    place.rowKey partition ≠ RowKey.metadata partition := fun h =>
  place.key.encode_ne_metadata (congrArg RowKey.sortKey h)

theorem compare_encode_metadata (partition : String) (key : SortKey) :
    compare (RowKey.mk partition key.encode) (RowKey.metadata partition) ≠ .lt := by
  have hgt : compareBytes key.encode SortKey.metadata = .gt :=
    Std.OrientedCmp.gt_of_lt (SortKey.compareBytes_metadata key)
  rw [RowKey.metadata, RowKey.compare_mk, hgt]
  decide

section Ranges

theorem contains_topicRange (place : Place) :
    (KeyRange.below SortKey.topicUpperBound).contains place.key.encode = !place.isQueued := by
  cases place with
  | topic channel name valid =>
    simp [KeyRange.contains, key, SortKey.compareBytes_topic_upperBound, isQueued]
  | queued position channel inRange =>
    simp [KeyRange.contains, key, SortKey.compareBytes_timestamped_upperBound, isQueued]

theorem contains_topicRange_metadata :
    (KeyRange.below SortKey.topicUpperBound).contains SortKey.metadata = true := by
  simp [KeyRange.contains, SortKey.compareBytes_metadata_upperBound]

/-- The bound of a watermark cuts the queue exactly there. -/
theorem exists_lowerBound {watermark : Option UInt64}
    (h : ∀ w ∈ watermark, w ≤ SortKey.maxPosition) :
    ∃ bound, SortKey.timestampLowerBound watermark = .ok bound ∧
      (∀ place : Place,
        (KeyRange.above bound).contains place.key.encode = place.isAfter watermark) ∧
      (KeyRange.above bound).contains SortKey.metadata = false := by
  cases watermark with
  | none =>
    refine ⟨_, rfl, fun place => ?_, by decide⟩
    cases place with
    | topic channel name valid =>
      simp [KeyRange.contains, key, SortKey.compareBytes_open_topic, isAfter]
    | queued position channel inRange =>
      simp [KeyRange.contains, key, SortKey.compareBytes_open_timestamped, isAfter]
  | some w =>
    have hw : w ≤ SortKey.maxPosition := h w rfl
    refine ⟨_, SortKey.timestampLowerBound_some hw, fun place => ?_, ?_⟩
    · cases place with
      | topic channel name valid =>
        simp [KeyRange.contains, key, SortKey.compareBytes_bound_topic, isAfter]
      | queued position channel inRange =>
        have hcmp : (compare w position).then .gt = .lt ↔ w < position := by
          rw [compare_toNat, UInt64.lt_iff_toNat_lt, ← Nat.compare_eq_lt]
          cases compare w.toNat position.toNat <;> simp
        simp only [KeyRange.contains, key, isAfter, Option.all_some,
          SortKey.compareBytes_bound_timestamped hw inRange]
        exact decide_eq_decide.2 hcmp
    · simp only [KeyRange.contains, String.append_assoc, compareBytes_eq, utf8_append]
      rfl

end Ranges

end Place

end PushQueue
