import PushQueue.SortKey
import PushQueue.Proofs.Ident
import PushQueue.Proofs.Results

/-!
The sort key format. Every encoded key is read back, whether it was built or read from any spelling,
and its text alone tells its layout. The byte order of the encoded keys is the order of the queue:
topics by channel and topic, then timestamped keys by position and channel. The bounds of the range
reads cut between the two, and exactly at a watermark.
-/

namespace PushQueue

namespace SortKey

open Text

def Readable : SortKey → Prop
  | .legacy _ messageId => messageId.toList ≠ [] ∧ ':' ∉ messageId.toList
  | .topic _ name => name.toList ≠ [] ∧ ':' ∉ name.toList
  | .timestamped .. => True

/-- The keys that can be built. -/
def Valid : SortKey → Prop
  | .legacy _ messageId => isSegment messageId = true
  | .topic _ name => isSegment name = true
  | .timestamped position _ => position ≤ maxPosition

instance : (key : SortKey) → Decidable key.Valid
  | .legacy _ messageId => inferInstanceAs (Decidable (isSegment messageId = true))
  | .topic _ name => inferInstanceAs (Decidable (isSegment name = true))
  | .timestamped position _ => inferInstanceAs (Decidable (position ≤ maxPosition))

theorem isSegment_spec {text : String} (h : isSegment text = true) :
    text.toList ≠ [] ∧ ':' ∉ text.toList := by
  simp only [isSegment, Bool.and_eq_true, Bool.not_eq_true', List.isEmpty_eq_false_iff,
    List.all_eq_true] at h
  refine ⟨h.1, fun hmem => ?_⟩
  have := h.2 ':' hmem
  simp at this

theorem Valid.readable {key : SortKey} (h : key.Valid) : key.Readable := by
  cases key with
  | legacy channel messageId => exact isSegment_spec h
  | topic channel name => exact isSegment_spec h
  | timestamped position channel => trivial

theorem toList_positionField (position : UInt64) :
    (positionField position).toList = padded 10 positionWidth position.toNat :=
  String.toList_ofList

theorem colon_notMem_positionField (position : UInt64) :
    ':' ∉ (positionField position).toList := by
  intro h
  rw [toList_positionField] at h
  exact (isDigit_spec (isDigit_of_mem_padded h)).2 rfl

@[simp] theorem readPosition_positionField (position : UInt64) :
    readPosition (positionField position).toList = .ok position := by
  unfold readPosition
  rw [toList_positionField, readNat?_padded]
  simp [position.toNat_lt]

@[simp] theorem readChannel_text (channel : ChannelId) :
    readChannel channel.text.toList = .ok channel := by
  simp [readChannel]

theorem toList_encode (key : SortKey) :
    key.encode.toList =
      match key with
      | .legacy channel messageId => channel.text.toList ++ ':' :: messageId.toList
      | .topic channel name =>
        topicVersion.toList ++ ':' :: (channel.text.toList ++ ':' :: name.toList)
      | .timestamped position channel =>
        timestampVersion.toList ++ ':' ::
          ((positionField position).toList ++ ':' :: channel.text.toList) := by
  cases key <;> simp [encode]

theorem channel_ne_version (channel : ChannelId) :
    channel.text.toList ≠ topicVersion.toList ∧ channel.text.toList ≠ timestampVersion.toList := by
  have hlen := channel.length_text
  constructor <;> intro h <;> rw [h] at hlen <;> exact absurd hlen (by decide)

theorem fields_encode {key : SortKey} (h : key.Readable) :
    fields ':' key.encode.toList =
      match key with
      | .legacy channel messageId => [channel.text.toList, messageId.toList]
      | .topic channel name => [topicVersion.toList, channel.text.toList, name.toList]
      | .timestamped position channel =>
        [timestampVersion.toList, (positionField position).toList, channel.text.toList] := by
  rw [toList_encode]
  cases key with
  | legacy channel messageId =>
    simp only [fields_append_cons channel.colon_notMem_text, fields_eq_singleton h.2]
  | topic channel name =>
    have hversion : ':' ∉ topicVersion.toList := by decide
    simp only [fields_append_cons hversion, fields_append_cons channel.colon_notMem_text,
      fields_eq_singleton h.2]
  | timestamped position channel =>
    have hversion : ':' ∉ timestampVersion.toList := by decide
    simp only [fields_append_cons hversion,
      fields_append_cons (colon_notMem_positionField position),
      fields_eq_singleton channel.colon_notMem_text]

theorem parse_encode {key : SortKey} (h : key.Readable) : parse key.encode = .ok key := by
  unfold parse
  rw [fields_encode h]
  cases key with
  | legacy channel messageId =>
    simp only [channel_ne_version channel, or_self, ↓reduceIte, channel.isEmpty_text,
      List.isEmpty_eq_false_iff.2 h.1, Bool.or_self, Bool.false_eq_true, readChannel_text]
    simp [Except.map]
  | topic channel name =>
    simp only [↓reduceIte, channel.isEmpty_text, List.isEmpty_eq_false_iff.2 h.1, Bool.or_self,
      Bool.false_eq_true, readChannel_text]
    simp [Except.map]
  | timestamped position channel =>
    have hversion : timestampVersion.toList ≠ topicVersion.toList := by decide
    simp only [hversion, ↓reduceIte, readPosition_positionField, readChannel_text]
    rfl

theorem parse_metadata : parse metadata = .error (.malformedSortKey metadata) := rfl

theorem encode_injective {a b : SortKey} (ha : a.Readable) (hb : b.Readable)
    (h : a.encode = b.encode) : a = b := by
  have hparse := parse_encode ha
  rw [h, parse_encode hb] at hparse
  exact (Except.ok.inj hparse).symm

section RoundTrip

theorem ofTopic_eq_ok_iff {channel : ChannelId} {name : String} {key : SortKey} :
    ofTopic channel name = .ok key ↔ isSegment name = true ∧ key = .topic channel name := by
  unfold ofTopic
  split
  next h => simp [h, eq_comm]
  next h => simp [h]

theorem ofMessageId_eq_ok_iff {channel : ChannelId} {messageId : String} {key : SortKey} :
    ofMessageId channel messageId = .ok key ↔
      isSegment messageId = true ∧ key = .legacy channel messageId := by
  unfold ofMessageId
  split
  next h => simp [h, eq_comm]
  next h => simp [h]

theorem checkPosition_eq_ok_iff {position checked : UInt64} :
    checkPosition position = .ok checked ↔ position ≤ maxPosition ∧ checked = position := by
  unfold checkPosition
  split
  next h => simp [UInt64.not_le.2 h]
  next h => simp [UInt64.not_lt.1 h, eq_comm]

theorem ofPosition_eq_ok_iff {channel : ChannelId} {position : UInt64} {key : SortKey} :
    ofPosition channel position = .ok key ↔
      position ≤ maxPosition ∧ key = .timestamped position channel := by
  rw [ofPosition, map_eq_ok_iff]
  constructor
  · rintro ⟨checked, hchecked, rfl⟩
    obtain ⟨hle, rfl⟩ := checkPosition_eq_ok_iff.1 hchecked
    exact ⟨hle, rfl⟩
  · rintro ⟨hle, rfl⟩
    exact ⟨position, checkPosition_eq_ok_iff.2 ⟨hle, rfl⟩, rfl⟩

/-- The keys that come up: those that are built, and those that are read from any text. -/
inductive Obtained : SortKey → Prop where
  | ofTopic {channel : ChannelId} {name : String} {key : SortKey}
      (h : SortKey.ofTopic channel name = .ok key) : Obtained key
  | ofMessageId {channel : ChannelId} {messageId : String} {key : SortKey}
      (h : SortKey.ofMessageId channel messageId = .ok key) : Obtained key
  | ofPosition {channel : ChannelId} {position : UInt64} {key : SortKey}
      (h : SortKey.ofPosition channel position = .ok key) : Obtained key
  | parse {text : String} {key : SortKey} (h : SortKey.parse text = .ok key) : Obtained key

/-- The version that the start of a text selects. -/
def versionOf (text : String) : String :=
  if topicVersion.toList ++ [':'] <+: text.toList then topicVersion
  else if timestampVersion.toList ++ [':'] <+: text.toList then timestampVersion
  else legacyVersion

/-- A key of any spelling, spelled as it is written today. -/
def normalize (text : String) : Except KeyError String := (parse text).map encode

theorem parse_cases {text : String} {key : SortKey} (h : parse text = .ok key) :
    (∃ channel field name, fields ':' text.toList = [topicVersion.toList, field, name] ∧
      readChannel field = .ok channel ∧ name ≠ [] ∧ key = .topic channel (String.ofList name)) ∨
    (∃ position channel field field',
      fields ':' text.toList = [timestampVersion.toList, field, field'] ∧
      readPosition field = .ok position ∧ readChannel field' = .ok channel ∧
      key = .timestamped position channel) ∨
    ∃ channel field messageId, fields ':' text.toList = [field, messageId] ∧
      field ≠ topicVersion.toList ∧ field ≠ timestampVersion.toList ∧
      readChannel field = .ok channel ∧ messageId ≠ [] ∧
      key = .legacy channel (String.ofList messageId) := by
  unfold parse at h
  split at h
  next version first second hfields =>
    split at h
    next hversion =>
      split at h
      · cases h
      next hempty =>
        obtain ⟨channel, hchannel, rfl⟩ := map_eq_ok_iff.1 h
        rw [hversion] at hfields
        refine .inl ⟨channel, first, second, hfields, hchannel, ?_, rfl⟩
        rintro rfl
        simp at hempty
    next =>
      split at h
      next hversion =>
        cases hposition : readPosition first with
        | error error =>
          rw [hposition] at h
          cases h
        | ok position =>
          rw [hposition] at h
          obtain ⟨channel, hchannel, rfl⟩ := map_eq_ok_iff.1 h
          rw [hversion] at hfields
          exact .inr (.inl
            ⟨position, channel, first, second, hfields, hposition, hchannel, rfl⟩)
      next => cases h
  next first second hfields =>
    split at h
    · cases h
    next hversion =>
      split at h
      · cases h
      next hempty =>
        obtain ⟨channel, hchannel, rfl⟩ := map_eq_ok_iff.1 h
        rw [not_or] at hversion
        refine .inr (.inr
          ⟨channel, first, second, hfields, hversion.1, hversion.2, hchannel, ?_, rfl⟩)
        rintro rfl
        simp at hempty
  next => cases h

theorem readable_of_parse {text : String} {key : SortKey} (h : parse text = .ok key) :
    key.Readable := by
  have hcolon : ∀ field ∈ fields ':' text.toList, ':' ∉ field := fun _ => sep_notMem_of_mem_fields
  rcases parse_cases h with ⟨channel, field, name, hfields, -, hne, rfl⟩ |
    ⟨position, channel, field, field', -, -, -, rfl⟩ |
    ⟨channel, field, messageId, hfields, -, -, -, hne, rfl⟩
  · rw [hfields] at hcolon
    exact ⟨by simpa using hne, by simpa using hcolon name (by simp)⟩
  · trivial
  · rw [hfields] at hcolon
    exact ⟨by simpa using hne, by simpa using hcolon messageId (by simp)⟩

theorem Obtained.readable {key : SortKey} (h : Obtained key) : key.Readable := by
  cases h with
  | ofTopic h =>
    obtain ⟨hname, rfl⟩ := ofTopic_eq_ok_iff.1 h
    exact isSegment_spec hname
  | ofMessageId h =>
    obtain ⟨hmessageId, rfl⟩ := ofMessageId_eq_ok_iff.1 h
    exact isSegment_spec hmessageId
  | ofPosition h =>
    obtain ⟨-, rfl⟩ := ofPosition_eq_ok_iff.1 h
    trivial
  | parse h => exact readable_of_parse h

theorem version_prefix_iff {version : List Char} (hversion : ':' ∉ version) {text : String}
    {first second : List Char} {rest : List (List Char)}
    (hfields : fields ':' text.toList = first :: second :: rest) :
    version ++ [':'] <+: text.toList ↔ version = first := by
  have hfirst : ':' ∉ first := sep_notMem_of_mem_fields (by rw [hfields]; exact List.mem_cons_self)
  have htext : text.toList = first ++ ':' :: joinFields ':' (second :: rest) := by
    rw [← joinFields_fields ':' text.toList, hfields, joinFields_cons_cons]
  rw [htext]
  exact append_sep_prefix_iff hversion hfirst _

theorem version_of_parse {text : String} {key : SortKey} (h : parse text = .ok key) :
    key.version = versionOf text := by
  have htopic : ':' ∉ topicVersion.toList := by decide
  have htimestamp : ':' ∉ timestampVersion.toList := by decide
  have hne : topicVersion.toList ≠ timestampVersion.toList := by decide
  unfold versionOf
  rcases parse_cases h with ⟨channel, field, name, hfields, -, -, rfl⟩ |
    ⟨position, channel, field, field', hfields, -, -, rfl⟩ |
    ⟨channel, field, messageId, hfields, htopicField, htimestampField, -, -, rfl⟩
  · rw [if_pos ((version_prefix_iff htopic hfields).2 rfl)]
    rfl
  · rw [if_neg (mt (version_prefix_iff htopic hfields).1 hne),
      if_pos ((version_prefix_iff htimestamp hfields).2 rfl)]
    rfl
  · rw [if_neg (mt (version_prefix_iff htopic hfields).1 htopicField.symm),
      if_neg (mt (version_prefix_iff htimestamp hfields).1 htimestampField.symm)]
    rfl

end RoundTrip

section Order

theorem toNat_lt_of_le_maxPosition {position : UInt64} (h : position ≤ maxPosition) :
    position.toNat < 10 ^ (18 + 1) := by
  have hle : position.toNat ≤ maxPosition.toNat := UInt64.le_iff_toNat_le.1 h
  have hmax : maxPosition.toNat = 9999999999999999999 := rfl
  omega

theorem utf8_positionField (position : UInt64) :
    utf8 (positionField position) = ascii (padded 10 positionWidth position.toNat) :=
  utf8_ofList_of_ascii fun _ hc => (isDigit_spec (isDigit_of_mem_padded hc)).1

theorem length_utf8_positionField {position : UInt64} (h : position ≤ maxPosition) :
    (utf8 (positionField position)).length = positionWidth := by
  rw [utf8_positionField, length_ascii]
  exact length_padded_of_lt (by decide) (toNat_lt_of_le_maxPosition h)

theorem compareBytes_positionField {a b : UInt64} (ha : a ≤ maxPosition) (hb : b ≤ maxPosition) :
    compareBytes (positionField a) (positionField b) = compare a b := by
  rw [compareBytes_eq, utf8_positionField, utf8_positionField, compare_toNat]
  exact compare_ascii_padded (by decide) (by decide) (toNat_lt_of_le_maxPosition ha)
    (toNat_lt_of_le_maxPosition hb)

theorem compareBytes_encode_topic (c d : ChannelId) (a b : String) :
    compareBytes (encode (.topic c a)) (encode (.topic d b)) =
      (compare c d).then (compareBytes a b) := by
  have hlen : (utf8 c.text).length = (utf8 d.text).length := by
    rw [c.length_utf8_text, d.length_utf8_text]
  simp only [encode, String.append_assoc]
  rw [compareBytes_append_left, compareBytes_append_left, compareBytes_append hlen,
    Ident.compareBytes_text, compareBytes_append_left]

theorem compareBytes_encode_timestamped {a b : UInt64} (ha : a ≤ maxPosition)
    (hb : b ≤ maxPosition) (c d : ChannelId) :
    compareBytes (encode (.timestamped a c)) (encode (.timestamped b d)) =
      (compare a b).then (compare c d) := by
  have hlen : (utf8 (positionField a)).length = (utf8 (positionField b)).length := by
    rw [length_utf8_positionField ha, length_utf8_positionField hb]
  simp only [encode, String.append_assoc]
  rw [compareBytes_append_left, compareBytes_append_left, compareBytes_append hlen,
    compareBytes_positionField ha hb, compareBytes_append_left, Ident.compareBytes_text]

theorem compareBytes_versions (x y : String) :
    compareBytes (topicVersion ++ x) (timestampVersion ++ y) = .lt := by
  have hlen : (utf8 topicVersion).length = (utf8 timestampVersion).length := by decide
  have hlt : compareBytes topicVersion timestampVersion = .lt := by decide
  rw [compareBytes_append hlen, hlt]
  rfl

theorem compareBytes_topic_timestamped (c d : ChannelId) (name : String) (position : UInt64) :
    compareBytes (encode (.topic c name)) (encode (.timestamped position d)) = .lt := by
  simp only [encode, String.append_assoc]
  exact compareBytes_versions _ _

theorem utf8_encode_legacy {channel : ChannelId} {a b c : Nat} (h : channel.uuid.Leads a b c)
    (messageId : String) :
    ∃ rest, utf8 (encode (.legacy channel messageId)) =
      digitByte a :: digitByte b :: digitByte c :: rest := by
  obtain ⟨rest, hrest⟩ := h.utf8_eq
  rw [encode, String.append_assoc, utf8_append, Ident.text, hrest]
  exact ⟨_, rfl⟩

theorem compareBytes_metadata (key : SortKey) : compareBytes metadata key.encode = .lt := by
  cases key with
  | legacy channel messageId =>
    have all : ∀ a < 16, compare (32 : UInt8) (digitByte a) = .lt := by decide
    obtain ⟨a, b, c, hleads⟩ := channel.uuid.exists_leads
    obtain ⟨rest, hrest⟩ := utf8_encode_legacy hleads messageId
    have hmetadata : utf8 metadata = [32] := by decide
    rw [compareBytes_eq, hrest, hmetadata, List.compare_cons_cons, all a hleads.lt_first]
    rfl
  | topic | timestamped =>
    simp only [encode, String.append_assoc, compareBytes_eq, utf8_append]
    rfl

theorem encode_ne_metadata (key : SortKey) : key.encode ≠ metadata := by
  intro h
  have hlt := compareBytes_metadata key
  have hself : compareBytes metadata metadata = .eq := Std.ReflCmp.compare_self
  rw [h, hself] at hlt
  cases hlt

end Order

section Codec

/-- Every key that comes up is read back from its text; so no two of them share a text, reading and
writing again leaves a text as it is, and the start of a text alone tells its version. The metadata
row's key is the text of none. -/
theorem codec_round_trip :
    (∀ key, Obtained key → parse key.encode = .ok key) ∧
    (∀ a b, Obtained a → Obtained b → a.encode = b.encode → a = b) ∧
    (∀ text key, parse text = .ok key → key.version = versionOf text) ∧
    (∀ key, Obtained key → key.version = versionOf key.encode) ∧
    (∀ text text', normalize text = .ok text' → normalize text' = .ok text') ∧
    ∀ key : SortKey, key.encode ≠ metadata := by
  have hread (key : SortKey) (h : Obtained key) : parse key.encode = .ok key :=
    parse_encode h.readable
  refine ⟨hread, fun a b ha hb => encode_injective ha.readable hb.readable,
    fun _ _ => version_of_parse, fun key h => version_of_parse (hread key h),
    fun text text' h => ?_, encode_ne_metadata⟩
  obtain ⟨key, hparse, rfl⟩ := map_eq_ok_iff.1 h
  rw [normalize, hread key (.parse hparse)]
  rfl

/-- A position of twenty digits, for a channel in capitals without hyphens: no key is built with it,
but it is read, and its text is read back. -/
theorem codec_round_trip_twenty_digits :
    ofPosition ⟨⟨10⟩⟩ 18446744073709551615 =
      .error (.positionOutOfRange 18446744073709551615) ∧
    parse "02:18446744073709551615:0000000000000000000000000000000A" =
      .ok (.timestamped 18446744073709551615 ⟨⟨10⟩⟩) ∧
    parse (encode (.timestamped 18446744073709551615 ⟨⟨10⟩⟩)) =
      .ok (.timestamped 18446744073709551615 ⟨⟨10⟩⟩) := by
  have hparse : parse "02:18446744073709551615:0000000000000000000000000000000A" =
      .ok (.timestamped 18446744073709551615 ⟨⟨10⟩⟩) :=
    toOption_eq_some_iff.1 (by decide +kernel)
  exact ⟨rfl, hparse, codec_round_trip.1 _ (.parse hparse)⟩

end Codec

section Bounds

theorem compareBytes_topic_upperBound (c : ChannelId) (name : String) :
    compareBytes (encode (.topic c name)) topicUpperBound = .lt := by
  have h := compareBytes_versions (":" ++ (c.text ++ (":" ++ name))) ""
  simpa only [encode, String.append_assoc, topicUpperBound, String.append_empty] using h

theorem compareBytes_timestamped_upperBound (position : UInt64) (c : ChannelId) :
    compareBytes (encode (.timestamped position c)) topicUpperBound = .gt := by
  have h : compareBytes (timestampVersion ++ (":" ++ (positionField position ++ (":" ++ c.text))))
      (timestampVersion ++ "") = .gt := by
    rw [compareBytes_append_left, compareBytes_eq, utf8_append]
    rfl
  simpa only [encode, String.append_assoc, topicUpperBound, String.append_empty] using h

theorem compareBytes_metadata_upperBound : compareBytes metadata topicUpperBound = .lt := by
  decide

theorem compareBytes_bound_text (c : ChannelId) : compareBytes "z" c.text = .gt := by
  have hz : utf8 "z" = [122] := by decide
  have hlen := c.length_utf8_text
  have hall : ∀ b ∈ utf8 c.text, b < 122 := by
    intro b hb
    rw [Ident.text, Uuid.utf8_hyphenated, ascii, List.mem_map] at hb
    obtain ⟨x, hx, rfl⟩ := hb
    rw [← Uuid.toList_hyphenated] at hx
    have hchar := Uuid.isTextChar_of_mem_hyphenated hx
    have all : ∀ d < 16, UInt8.ofNat (Nat.digitChar d).toNat < 122 := by decide
    simp only [Uuid.isTextChar, Bool.or_eq_true, decide_eq_true_eq, List.any_eq_true,
      List.mem_range] at hchar
    rcases hchar with rfl | ⟨d, hd, rfl⟩
    · decide
    · exact all d hd
  rw [compareBytes_eq, hz]
  cases hbytes : utf8 c.text with
  | nil => simp [hbytes] at hlen
  | cons b rest =>
    have hb : b < 122 := hall b (by simp [hbytes])
    have hcmp : compare (122 : UInt8) b = .gt := by
      change compareOfLessAndEq (122 : UInt8) b = .gt
      have hne : (122 : UInt8) ≠ b := by
        rintro rfl
        exact absurd hb (by decide)
      have hnlt : ¬ (122 : UInt8) < b := UInt8.lt_asymm hb
      simp [compareOfLessAndEq, hne, hnlt]
    simp [hcmp]

theorem timestampLowerBound_some {position : UInt64} (h : position ≤ maxPosition) :
    timestampLowerBound (some position) =
      .ok (timestampVersion ++ ":" ++ positionField position ++ ":z") := by
  have hnot : ¬ position > maxPosition := UInt64.not_lt.2 h
  simp [timestampLowerBound, checkPosition, hnot, Except.map]

theorem compareBytes_bound_timestamped {w a : UInt64} (hw : w ≤ maxPosition)
    (ha : a ≤ maxPosition) (c : ChannelId) :
    compareBytes (timestampVersion ++ ":" ++ positionField w ++ ":z") (encode (.timestamped a c)) =
      (compare w a).then .gt := by
  have hlen : (utf8 (positionField w)).length = (utf8 (positionField a)).length := by
    rw [length_utf8_positionField hw, length_utf8_positionField ha]
  have hz : (":z" : String) = ":" ++ "z" := rfl
  simp only [encode, String.append_assoc]
  rw [compareBytes_append_left, compareBytes_append_left, compareBytes_append hlen,
    compareBytes_positionField hw ha, hz, compareBytes_append_left, compareBytes_bound_text]

theorem compareBytes_bound_topic (w : UInt64) (c : ChannelId) (name : String) :
    compareBytes (timestampVersion ++ ":" ++ positionField w ++ ":z") (encode (.topic c name)) =
      .gt := by
  have h := compareBytes_versions (":" ++ (c.text ++ (":" ++ name)))
    (":" ++ (positionField w ++ ":z"))
  simp only [encode, String.append_assoc]
  exact Std.OrientedCmp.gt_of_lt h

theorem compareBytes_open_timestamped (position : UInt64) (c : ChannelId) :
    compareBytes (topicVersion ++ ";") (encode (.timestamped position c)) = .lt := by
  simp only [encode, String.append_assoc]
  exact compareBytes_versions _ _

theorem compareBytes_open_topic (c : ChannelId) (name : String) :
    compareBytes (topicVersion ++ ";") (encode (.topic c name)) = .gt := by
  simp only [encode, String.append_assoc]
  rw [compareBytes_append_left, compareBytes_eq, utf8_append]
  rfl

theorem compareBytes_metadata_bound (position : UInt64) :
    compareBytes metadata (timestampVersion ++ ":" ++ positionField position ++ ":z") = .lt := by
  simp only [String.append_assoc, compareBytes_eq, utf8_append]
  rfl

/-- A bound above the metadata row and the topics, which parts the queue: just the positions past it
are above. -/
structure Cuts (bound : String) (isPast : UInt64 → Prop) : Prop where
  metadata_lt : compareBytes metadata bound = .lt
  topic_lt : ∀ channel name key, ofTopic channel name = .ok key →
    compareBytes key.encode bound = .lt
  lt_timestamped_iff : ∀ channel position key, ofPosition channel position = .ok key →
    (compareBytes bound key.encode = .lt ↔ isPast position)

theorem cuts_upperBound : Cuts topicUpperBound fun _ => True where
  metadata_lt := compareBytes_metadata_upperBound
  topic_lt channel name key h := by
    obtain ⟨-, rfl⟩ := ofTopic_eq_ok_iff.1 h
    exact compareBytes_topic_upperBound channel name
  lt_timestamped_iff channel position key h := by
    obtain ⟨-, rfl⟩ := ofPosition_eq_ok_iff.1 h
    exact iff_true_intro
      (Std.OrientedCmp.lt_of_gt (compareBytes_timestamped_upperBound position channel))

theorem cuts_open : Cuts (topicVersion ++ ";") fun _ => True where
  metadata_lt := by decide
  topic_lt channel name key h := by
    obtain ⟨-, rfl⟩ := ofTopic_eq_ok_iff.1 h
    exact Std.OrientedCmp.lt_of_gt (compareBytes_open_topic channel name)
  lt_timestamped_iff channel position key h := by
    obtain ⟨-, rfl⟩ := ofPosition_eq_ok_iff.1 h
    exact iff_true_intro (compareBytes_open_timestamped position channel)

theorem cuts_watermark {w : UInt64} (hw : w ≤ maxPosition) :
    Cuts (timestampVersion ++ ":" ++ positionField w ++ ":z") (w < ·) where
  metadata_lt := compareBytes_metadata_bound w
  topic_lt channel name key h := by
    obtain ⟨-, rfl⟩ := ofTopic_eq_ok_iff.1 h
    exact Std.OrientedCmp.lt_of_gt (compareBytes_bound_topic w channel name)
  lt_timestamped_iff channel position key h := by
    obtain ⟨hposition, rfl⟩ := ofPosition_eq_ok_iff.1 h
    rw [compareBytes_bound_timestamped hw hposition, compare_toNat, UInt64.lt_iff_toNat_lt,
      ← Nat.compare_eq_lt]
    cases compare w.toNat position.toNat <;> simp

theorem compare_then_eq_lt_iff {a b : UInt64} {c d : ChannelId} :
    (compare a b).then (compare c d) = .lt ↔ a < b ∨ a = b ∧ compare c d = .lt := by
  rw [compare_toNat, Ordering.then_eq_lt, Nat.compare_eq_lt, Nat.compare_eq_eq,
    UInt64.lt_iff_toNat_lt, UInt64.toNat_inj]

/-- The byte order of the keys is the order of the queue, and the bounds of the range reads cut it:
before its first position, and exactly at a watermark. The metadata row comes before every key. -/
theorem byte_order_is_queue_order :
    (∀ c d a b, a ≤ maxPosition → b ≤ maxPosition → ∃ key key',
      ofPosition c a = .ok key ∧ ofPosition d b = .ok key' ∧
        (compareBytes key.encode key'.encode = .lt ↔ a < b ∨ a = b ∧ compare c d = .lt)) ∧
    (∀ w ≤ maxPosition, ∃ bound, timestampLowerBound (some w) = .ok bound ∧ Cuts bound (w < ·)) ∧
    (∃ bound, timestampLowerBound none = .ok bound ∧ Cuts bound fun _ => True) ∧
    (Cuts topicUpperBound fun _ => True) ∧
    ∀ key, compareBytes metadata (encode key) = .lt := by
  refine ⟨fun c d a b ha hb => ?_, fun w hw => ?_, ⟨_, rfl, cuts_open⟩, cuts_upperBound,
    compareBytes_metadata⟩
  · refine ⟨_, _, ofPosition_eq_ok_iff.2 ⟨ha, rfl⟩, ofPosition_eq_ok_iff.2 ⟨hb, rfl⟩, ?_⟩
    rw [compareBytes_encode_timestamped ha hb, compare_then_eq_lt_iff]
  · exact ⟨_, timestampLowerBound_some hw, cuts_watermark hw⟩

/-- One digit more, and a channel that is less: the position decides. -/
theorem byte_order_is_queue_order_at_thousand :
    (999 : UInt64) ≤ maxPosition ∧ (1000 : UInt64) ≤ maxPosition ∧
    compareBytes (encode (.timestamped 999 ⟨⟨2⟩⟩)) (encode (.timestamped 1000 ⟨⟨1⟩⟩)) = .lt ∧
    ∃ bound, timestampLowerBound (some 999) = .ok bound ∧
      compareBytes bound (encode (.timestamped 1000 ⟨⟨1⟩⟩)) = .lt := by
  have hearly : (999 : UInt64) ≤ maxPosition := by decide
  have hlate : (1000 : UInt64) ≤ maxPosition := by decide
  obtain ⟨horder, hbounds, -⟩ := byte_order_is_queue_order
  obtain ⟨early, late, hofEarly, hofLate, hlt⟩ := horder ⟨⟨2⟩⟩ ⟨⟨1⟩⟩ 999 1000 hearly hlate
  obtain ⟨bound, hbound, hcuts⟩ := hbounds 999 hearly
  have habove := hcuts.lt_timestamped_iff ⟨⟨1⟩⟩ 1000 late hofLate
  obtain ⟨-, rfl⟩ := ofPosition_eq_ok_iff.1 hofEarly
  obtain ⟨-, rfl⟩ := ofPosition_eq_ok_iff.1 hofLate
  exact ⟨hearly, hlate, hlt.2 (.inl (by decide)), bound, hbound, habove.2 (by decide)⟩

end Bounds

end SortKey

end PushQueue
