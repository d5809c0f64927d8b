import PushQueue.Proofs.Mailbox.Drained
import PushQueue.Proofs.Spelling

/-!
The two ranges of a reader without a watermark overlap. A row of the oldest layout whose channel
starts with `01` and a hexadecimal letter stands after every topic, where the second range starts,
and before the bound of the first one, so both pages give it; no other row is on both.
-/

namespace PushQueue

namespace Text

variable {cs : List Char}

theorem utf8_ofList (cs : List Char) :
    utf8 (String.ofList cs) = cs.flatMap String.utf8EncodeChar := by
  unfold utf8
  rw [String.toByteArray_ofList, List.utf8Encode, List.data_toByteArray, List.toList_toArray]

theorem utf8EncodeChar_of_ascii {c : Char} (h : c.toNat < 128) :
    String.utf8EncodeChar c = [UInt8.ofNat c.toNat] := by
  have hle : c.toNat ≤ 127 := Nat.le_of_lt_succ h
  simp [String.utf8EncodeChar, hle]

theorem ascii_of_utf8EncodeChar {c : Char} {b : UInt8} {bytes : List UInt8}
    (h : String.utf8EncodeChar c = b :: bytes) (hb : b.toNat < 128) : c.toNat < 128 := by
  refine Nat.lt_of_not_le fun hc => ?_
  have hc' : ¬ c.val.toNat ≤ 127 := fun hle => absurd (Nat.lt_succ_of_le hle) (Nat.not_lt.2 hc)
  have hlarge {m k : Nat} (hm : 0 < m) (hsum : m + k ≤ 256) (hk : 128 ≤ k) (n : Nat) :
      128 ≤ (UInt8.ofNat (n % m + k)).toNat := by
    have hlt := Nat.mod_lt n hm
    rw [UInt8.toNat_ofNat', Nat.mod_eq_of_lt (by omega)]
    omega
  unfold String.utf8EncodeChar at h
  simp only [if_neg hc'] at h
  have hfirst : 128 ≤ b.toNat := by
    split at h
    case isTrue =>
      obtain ⟨rfl, -⟩ := List.cons.inj h
      exact hlarge (by decide) (by decide) (by decide) _
    case isFalse =>
      split at h
      all_goals
        obtain ⟨rfl, -⟩ := List.cons.inj h
        exact hlarge (by decide) (by decide) (by decide) _
  omega

theorem exists_of_utf8_eq_cons {b : UInt8} {bytes : List UInt8}
    (h : utf8 (String.ofList cs) = b :: bytes) (hb : b.toNat < 128) :
    ∃ c rest, cs = c :: rest ∧ c.toNat = b.toNat ∧ utf8 (String.ofList rest) = bytes := by
  rw [utf8_ofList] at h
  cases cs with
  | nil => cases h
  | cons c rest =>
    rw [List.flatMap_cons] at h
    cases hc : String.utf8EncodeChar c with
    | nil => exact absurd hc String.utf8EncodeChar_ne_nil
    | cons first more =>
      rw [hc, List.cons_append] at h
      obtain ⟨rfl, hrest⟩ := List.cons.inj h
      have hascii := ascii_of_utf8EncodeChar hc hb
      rw [utf8EncodeChar_of_ascii hascii] at hc
      obtain ⟨rfl, rfl⟩ := List.cons.inj hc
      refine ⟨c, rest, rfl, ?_, by rw [utf8_ofList]; exact hrest⟩
      rw [UInt8.toNat_ofNat', Nat.mod_eq_of_lt (by omega)]

theorem compare_bytes_cons_eq_lt {a b : UInt8} {as bs : List UInt8} :
    compare (a :: as) (b :: bs) = .lt ↔
      a.toNat < b.toNat ∨ a.toNat = b.toNat ∧ compare as bs = .lt := by
  rw [List.compare_cons_cons, compare_byte, Ordering.then_eq_lt, Nat.compare_eq_lt,
    Nat.compare_eq_eq]

theorem hexValue?_spec {c : Char} {d : Nat} (h : hexValue? c = some d) :
    c.toNat < 128 ∧ (10 ≤ d ↔ 59 < c.toNat) ∧ (59 ≤ c.toNat → 59 < c.toNat) := by
  obtain ⟨hd, hlower⟩ := hexValue?_eq_some_iff.1 h
  have hdigit := toNat_digitChar hd
  rw [← hlower] at hdigit
  have hcase := toNat_toLower c
  omega

end Text

namespace Uuid

open Text

variable {cs : List Char} {u : Uuid}

theorem Spells.exists_hexValue? (h : Spells u ('0' :: cs)) {c : Char}
    (hc : c ∈ ('0' :: cs).take 8) : ∃ d, hexValue? c = some d := by
  generalize hspelling : '0' :: cs = spelling at h hc
  cases h with
  | bare hds => exact hds.exists_hexValue? (List.mem_of_mem_take hc)
  | @hyphenated ds hds =>
    have height : (ds.take 8).length = 8 := List.length_take_of_le (by rw [hds.length_eq]; decide)
    have hfirst : (hyphenate ds).take 8 = ds.take 8 := by
      rw [hyphenate, groups, joinFields_cons_cons, List.take_left' height]
    rw [hfirst] at hc
    exact hds.exists_hexValue? (List.mem_of_mem_take hc)
  | braced hds => cases hspelling
  | @urn scheme ds hscheme hds =>
    cases scheme with
    | nil => cases hscheme
    | cons first scheme =>
      obtain ⟨rfl, -⟩ := List.cons.inj hspelling
      cases hscheme

end Uuid

open Text

theorem Ident.exists_third_digit {role : Role} {id : Ident role} {cs : List Char}
    (h : Ident.parse (String.ofList ('0' :: '1' :: cs)) = .ok id) :
    ∃ c rest d, cs = c :: rest ∧ hexValue? c = some d := by
  obtain ⟨before, spelling, after, htext, hbefore, -, hspells⟩ := Ident.parse_eq_ok_iff.1 h
  rw [String.toList_ofList] at htext
  have hlength := hspells.length_mem
  cases before with
  | cons blank before =>
    obtain ⟨rfl, -⟩ := List.cons.inj htext
    exact absurd (hbefore _ List.mem_cons_self) (by decide)
  | nil =>
    match spelling, hlength with
    | first :: second :: c :: rest, _ =>
      obtain ⟨rfl, hone⟩ := List.cons.inj htext
      obtain ⟨-, htail⟩ := List.cons.inj hone
      obtain ⟨d, hd⟩ := hspells.exists_hexValue? (by simp : c ∈ _)
      exact ⟨c, rest ++ after, d, htail, hd⟩

namespace SortKey

variable {text bound : String} {key : SortKey} {watermark : Option UInt64}

/-- The text starts with `01` and a hexadecimal letter. -/
def IsDoubled (text : String) : Prop :=
  ∃ c rest d, text.toList = '0' :: '1' :: c :: rest ∧ hexValue? c = some d ∧ 10 ≤ d

theorem utf8_openBound : utf8 (topicVersion ++ ";") = [48, 49, 59] := by decide

theorem utf8_upperBound : utf8 topicUpperBound = [48, 50] := by decide

theorem exists_third_byte {bytes : List UInt8} (hlow : compare [48, 49, 59] bytes = .lt)
    (hhigh : compare bytes [48, 50] = .lt) :
    ∃ b rest, bytes = 48 :: 49 :: b :: rest ∧ 59 ≤ b.toNat := by
  have hbytes : (48 : UInt8).toNat = 48 ∧ (49 : UInt8).toNat = 49 ∧ (50 : UInt8).toNat = 50 ∧
      (59 : UInt8).toNat = 59 := ⟨rfl, rfl, rfl, rfl⟩
  match bytes with
  | [] => cases hlow
  | [a] =>
    simp only [compare_bytes_cons_eq_lt, List.compare_cons_nil, List.compare_nil_cons, reduceCtorEq,
      and_false, or_false, and_true] at hlow hhigh
    omega
  | [a, b] =>
    simp only [compare_bytes_cons_eq_lt, List.compare_cons_nil, List.compare_nil_nil, reduceCtorEq,
      and_false, or_false] at hlow hhigh
    omega
  | a :: b :: c :: rest =>
    simp only [compare_bytes_cons_eq_lt, List.compare_cons_nil, reduceCtorEq, and_false,
      or_false] at hlow hhigh
    have ha : a = 48 := UInt8.toNat_inj.1 (by omega)
    have hb : b = 49 := UInt8.toNat_inj.1 (by omega)
    exact ⟨c, rest, by rw [ha, hb], by omega⟩

theorem exists_third_digit {channel : ChannelId} {field tail rest : List Char}
    (hchannel : readChannel field = .ok channel)
    (h : field ++ ':' :: tail = '0' :: '1' :: rest) :
    ∃ c digits d, rest = c :: digits ∧ hexValue? c = some d := by
  cases field with
  | nil => exact absurd (List.cons.inj h).1 (by decide)
  | cons first digits =>
    obtain ⟨rfl, hmore⟩ := List.cons.inj h
    cases digits with
    | nil => exact absurd (List.cons.inj hmore).1 (by decide)
    | cons second digits =>
      obtain ⟨rfl, htail⟩ := List.cons.inj hmore
      have hparse : Ident.parse (String.ofList ('0' :: '1' :: digits)) = .ok channel := by
        unfold readChannel at hchannel
        split at hchannel
        next id hid => rwa [Except.ok.inj hchannel] at hid
        next => cases hchannel
      obtain ⟨c, digits, d, rfl, hd⟩ := Ident.exists_third_digit hparse
      exact ⟨c, _, d, htail.symm, hd⟩

/-- What is read as a key and stands where the ranges overlap starts with `01` and a letter. -/
theorem isDoubled_of_parse (h : parse text = .ok key)
    (hlow : compareBytes (topicVersion ++ ";") text = .lt)
    (hhigh : compareBytes text topicUpperBound = .lt) : IsDoubled text := by
  rw [compareBytes_eq, utf8_openBound] at hlow
  rw [compareBytes_eq, utf8_upperBound] at hhigh
  obtain ⟨b, bytes, hutf8, hb⟩ := exists_third_byte hlow hhigh
  rw [← String.ofList_toList (s := text)] at hutf8
  obtain ⟨zero, afterZero, htext, hzero, hone⟩ := exists_of_utf8_eq_cons hutf8 (by decide)
  obtain ⟨one, rest, rfl, hone, hrest⟩ := exists_of_utf8_eq_cons hone (by decide)
  obtain rfl : zero = '0' := Char.toNat_inj.1 hzero
  obtain rfl : one = '1' := Char.toNat_inj.1 hone
  rw [utf8_ofList] at hrest
  have hversions : topicVersion.toList = ['0', '1'] ∧ timestampVersion.toList = ['0', '2'] :=
    ⟨rfl, rfl⟩
  have hjoined := joinFields_fields ':' text.toList
  rcases parse_cases h with ⟨channel, field, name, hfields, -⟩ |
    ⟨position, channel, field, field', hfields, -⟩ |
    ⟨channel, field, messageId, hfields, -, -, hchannel, -⟩
  · -- The mark after the version of a topic comes before the bound.
    rw [hfields, joinFields_cons_cons, htext, hversions.1, List.cons_append, List.singleton_append,
      List.cons.injEq, List.cons.injEq] at hjoined
    rw [← hjoined.2.2, List.flatMap_cons, utf8EncodeChar_of_ascii (by decide),
      List.singleton_append] at hrest
    rw [← (List.cons.inj hrest).1] at hb
    exact absurd hb (by decide)
  · rw [hfields, joinFields_cons_cons, htext, hversions.2, List.cons_append, List.singleton_append,
      List.cons.injEq, List.cons.injEq] at hjoined
    exact absurd hjoined.2.1 (by decide)
  · rw [hfields, joinFields_cons_cons, htext] at hjoined
    obtain ⟨c, digits, d, rfl, hd⟩ := exists_third_digit hchannel hjoined
    obtain ⟨hascii, hletter, hmark⟩ := hexValue?_spec hd
    rw [List.flatMap_cons, utf8EncodeChar_of_ascii hascii] at hrest
    rw [← (List.cons.inj hrest).1, UInt8.toNat_ofNat', Nat.mod_eq_of_lt (by omega)] at hb
    exact ⟨c, digits, d, htext, hd, hletter.2 (hmark hb)⟩

theorem IsDoubled.bounds (h : IsDoubled text) :
    compareBytes (topicVersion ++ ";") text = .lt ∧ compareBytes text topicUpperBound = .lt := by
  obtain ⟨c, rest, d, htext, hd, hletter⟩ := h
  obtain ⟨hascii, hmark, -⟩ := hexValue?_spec hd
  have hutf8 : utf8 text =
      48 :: 49 :: UInt8.ofNat c.toNat :: rest.flatMap String.utf8EncodeChar := by
    rw [← String.ofList_toList (s := text), htext, utf8_ofList, List.flatMap_cons,
      List.flatMap_cons, List.flatMap_cons, utf8EncodeChar_of_ascii hascii]
    rfl
  have hbyte : (59 : UInt8).toNat < (UInt8.ofNat c.toNat).toNat := by
    rw [UInt8.toNat_ofNat', Nat.mod_eq_of_lt (by omega)]
    exact hmark.1 hletter
  rw [compareBytes_eq, compareBytes_eq, utf8_openBound, utf8_upperBound, hutf8]
  have htwo : (49 : UInt8).toNat < (50 : UInt8).toNat := by decide
  simp only [compare_bytes_cons_eq_lt, hbyte, htwo, true_or, or_true, and_true]

theorem upperBound_lt_of_watermark {w : UInt64} (h : timestampLowerBound (some w) = .ok bound) :
    compareBytes topicUpperBound bound = .lt := by
  obtain ⟨position, -, rfl⟩ := map_eq_ok_iff.1 h
  rw [compareBytes_eq, String.append_assoc, String.append_assoc, utf8_append]
  rfl

end SortKey

theorem mem_take_iff_countP {α : Type} {before : α → α → Bool} {l : List α} {x : α} {n : Nat}
    (hasymm : ∀ a b, before a b = true → before b a = false)
    (hl : l.Pairwise fun a b => before a b = true) (hx : x ∈ l) :
    x ∈ l.take n ↔ l.countP (before · x) < n := by
  induction l generalizing n with
  | nil => cases hx
  | cons a l ih =>
    obtain ⟨ha, hrest⟩ := List.pairwise_cons.1 hl
    cases n with
    | zero => simp
    | succ n =>
      rw [List.take_succ_cons, List.mem_cons, List.countP_cons]
      rcases List.mem_cons.1 hx with rfl | hmem
      · have hself : before x x ≠ true := fun h => by
          rw [hasymm x x h] at h
          cases h
        have hnone : l.countP (before · x) = 0 :=
          List.countP_eq_zero.2 fun b hb => by simp [hasymm x b (ha b hb)]
        simp [hnone, hself]
      · have hne : x ≠ a := by
          rintro rfl
          have h := ha x hmem
          rw [hasymm x x h] at h
          cases h
        rw [or_iff_right hne, ih hrest hmem, if_pos (ha x hmem), Nat.add_lt_add_iff_right]

namespace Mailbox

variable {rows : MessageRows} {p bound : String} {limit : Nat} {watermark : Option UInt64}
  {row : MessageRow} {range : KeyRange}

def topicPage (rows : MessageRows) (p : String) (limit : Nat) : List MessageRow :=
  (splitMetadata ((Store.select rows p (.below SortKey.topicUpperBound)).take limit)).2

def queuePage (rows : MessageRows) (p bound : String) (limit : Nat) : List MessageRow :=
  (Store.select rows p (.above bound)).take limit

/-- How many rows of its partition come before a key. -/
def rank (rows : MessageRows) (k : RowKey) : Nat :=
  (rows.filter fun other _ =>
    other.partition = k.partition && compareBytes other.sortKey k.sortKey = .lt).size

def comesBefore (a b : MessageRow) : Bool := compare a.key b.key = .lt

theorem comesBefore_asymm (a b : MessageRow) (h : comesBefore a b = true) :
    comesBefore b a = false := by
  have hlt : compare a.key b.key = .lt := of_decide_eq_true h
  refine decide_eq_false fun hgt => ?_
  have hself := Std.TransCmp.lt_trans hlt hgt
  simp at hself

theorem mem_take_select_iff {n : Nat} (h : row ∈ Store.select rows p range) :
    row ∈ (Store.select rows p range).take n ↔
      (Store.select rows p range).countP (comesBefore · row) < n := by
  refine mem_take_iff_countP comesBefore_asymm ?_ h
  exact (Store.pairwise_select rows p range).imp fun hlt => decide_eq_true hlt

theorem countP_select (hp : row.key.partition = p) (range : KeyRange) :
    (Store.select rows p range).countP (comesBefore · row) =
      rows.entries.countP fun e => range.contains e.1.sortKey &&
        (e.1.partition = row.key.partition &&
          compareBytes e.1.sortKey row.key.sortKey = .lt) := by
  subst hp
  unfold Store.select SortedMap.filter
  rw [List.countP_map, List.countP_filter]
  refine List.countP_congr fun e _ => ?_
  obtain ⟨⟨partition, sortKey⟩, content⟩ := e
  obtain ⟨⟨p, text⟩, content'⟩ := row
  simp only [Function.comp_apply, comesBefore, Bool.and_eq_true, decide_eq_true_eq]
  constructor
  · rintro ⟨hlt, rfl, hin⟩
    rw [RowKey.compare_mk] at hlt
    exact ⟨hin, rfl, hlt⟩
  · rintro ⟨hin, rfl, hlt⟩
    rw [RowKey.compare_mk]
    exact ⟨hlt, rfl, hin⟩

theorem countP_select_le (hp : row.key.partition = p) (range : KeyRange) :
    (Store.select rows p range).countP (comesBefore · row) ≤ rank rows row.key := by
  rw [countP_select hp, rank, SortedMap.size, SortedMap.filter, ← List.countP_eq_length_filter]
  exact List.countP_mono_left fun e _ h => (Bool.and_eq_true_iff.1 h).2

theorem countP_select_below (hp : row.key.partition = p) {bound : String}
    (h : compareBytes row.key.sortKey bound = .lt) :
    (Store.select rows p (.below bound)).countP (comesBefore · row) = rank rows row.key := by
  rw [countP_select hp, rank, SortedMap.size, SortedMap.filter, ← List.countP_eq_length_filter]
  refine List.countP_congr fun e _ => ?_
  rw [Bool.and_eq_true_iff, and_iff_right_iff_imp]
  intro hbefore
  have hlt := of_decide_eq_true (Bool.and_eq_true_iff.1 hbefore).2
  exact decide_eq_true (Std.TransCmp.lt_trans hlt h)

theorem mem_splitMetadata_of_ne {l : List MessageRow} (h : row ∈ l)
    (hne : row.key.isMetadata = false) : row ∈ (splitMetadata l).2 := by
  cases l with
  | nil => cases h
  | cons first rest =>
    simp only [splitMetadata]
    split
    next hfirst =>
      rcases List.mem_cons.1 h with rfl | h
      · rw [hfirst] at hne
        cases hne
      · exact h
    next => exact h

theorem isMetadata_of_isDoubled (h : SortKey.IsDoubled row.key.sortKey) :
    row.key.isMetadata = false := by
  obtain ⟨c, rest, d, htext, -⟩ := h
  refine decide_eq_false fun hmetadata => ?_
  rw [hmetadata] at htext
  cases htext

/-- A row is on both pages if there is no watermark, its key starts with `01` and a letter, and the
limit reaches it; and else it is on one of them at most. -/
theorem mem_both_pages_iff (hbound : SortKey.timestampLowerBound watermark = .ok bound)
    (hread : ∀ row ∈ topicPage rows p limit, ∃ key, SortKey.parse row.key.sortKey = .ok key) :
    row ∈ topicPage rows p limit ∧ row ∈ queuePage rows p bound limit ↔
      watermark = none ∧ rows.get? row.key = some row.content ∧ row.key.partition = p ∧
        SortKey.IsDoubled row.key.sortKey ∧ rank rows row.key < limit := by
  constructor
  · rintro ⟨htopic, hqueue⟩
    obtain ⟨key, hparse⟩ := hread row htopic
    have htake := mem_splitMetadata htopic
    have hselect := List.mem_of_mem_take htake
    obtain ⟨hget, hp, hbelow⟩ := mem_select_below.1 hselect
    obtain ⟨-, -, hin⟩ := Store.mem_select_iff.1 (List.mem_of_mem_take hqueue)
    have habove : compareBytes bound row.key.sortKey = .lt := of_decide_eq_true hin
    rw [mem_take_select_iff hselect, countP_select_below hp hbelow] at htake
    cases watermark with
    | some w =>
      have hpast := Std.TransCmp.lt_trans (SortKey.upperBound_lt_of_watermark hbound) habove
      exact absurd (Std.TransCmp.lt_trans hpast hbelow) (by decide)
    | none =>
      obtain rfl := Except.ok.inj hbound
      exact ⟨rfl, hget, hp, SortKey.isDoubled_of_parse hparse habove hbelow, htake⟩
  · rintro ⟨rfl, hget, hp, hdoubled, hrank⟩
    obtain rfl := Except.ok.inj hbound
    obtain ⟨habove, hbelow⟩ := hdoubled.bounds
    have hselect := mem_select_below.2 ⟨hget, hp, hbelow⟩
    have hselect' : row ∈ Store.select rows p (.above (SortKey.topicVersion ++ ";")) :=
      Store.mem_select_iff.2 ⟨hget, hp, decide_eq_true habove⟩
    constructor
    · refine mem_splitMetadata_of_ne ?_ (isMetadata_of_isDoubled hdoubled)
      rwa [mem_take_select_iff hselect, countP_select_below hp hbelow]
    · exact (mem_take_select_iff hselect').2 (Nat.lt_of_le_of_lt (countP_select_le hp _) hrank)

section Reads

variable {t : TableHandle} {u : SubscriberId} {e : Engine} {store : Store} {page : Page}

theorem topicPage_of_gives (h : (fetch t u limit).Gives e page store) :
    ∃ rows, e.store.messageRows t.table = .ok rows ∧
      (topicPage rows (t.partition u) limit).mapM (readRow u) = .ok page.messages :=
  (fetch_of_gives h).2

theorem queuePage_of_gives (h : (fetchAfter t u watermark limit).Gives e page store) :
    ∃ rows bound, e.store.messageRows t.table = .ok rows ∧
      SortKey.timestampLowerBound watermark = .ok bound ∧
      (queuePage rows (t.partition u) bound limit).mapM (readRow u) = .ok page.messages := by
  obtain ⟨bound, hbound, hrest⟩ := h.of_tracked.of_ofExcept_bind
  obtain ⟨read, e₁, hread, hrest⟩ := hrest.of_bind
  obtain ⟨hquery, -⟩ := hread.of_read
  obtain ⟨rows, hrows, rfl⟩ := map_eq_ok_iff.1 hquery
  obtain ⟨messages, hdecoded, hpage⟩ := hrest.of_ofExcept_bind
  obtain ⟨rfl, -⟩ := hpage.of_pure
  exact ⟨rows, bound, hrows, orStore_eq_ok_iff.1 hbound, hdecoded⟩

theorem exists_key_of_topicPage {messages : List Notification}
    (h : (topicPage rows p limit).mapM (readRow u) = .ok messages) :
    ∀ row ∈ topicPage rows p limit, ∃ key, SortKey.parse row.key.sortKey = .ok key := by
  intro row hrow
  have hmap := map_eq_of_mapM_eq_ok h
  have hmem : readRow u row ∈ messages.map Except.ok := hmap ▸ List.mem_map_of_mem hrow
  obtain ⟨n, -, hread⟩ := List.mem_map.1 hmem
  obtain ⟨key, hparse, -⟩ := readRow_eq_ok hread.symm
  exact ⟨key, hparse⟩

end Reads

end Mailbox

end PushQueue
