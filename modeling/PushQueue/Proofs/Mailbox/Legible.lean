import PushQueue.Proofs.Channels
import PushQueue.Proofs.Mailbox.Requests

/-!
Rows that can be read back: metadata rows with channels that are ids and a read position in range,
and whole rows at places. Tables of such rows stay so under every change of rows that offers such
rows.
-/

namespace PushQueue.Mailbox

variable {rows rows' : MessageRows} {k : RowKey} {content : RowContent} {p : String}

section Texts

def AreIds (texts : SortedSet String) : Prop :=
  ∀ text ∈ texts.keys, ∃ channel : ChannelId, channel.text = text

theorem areIds_empty : AreIds .empty := nofun

theorem areIds_texts (channels : SortedSet ChannelId) : AreIds (Channels.texts channels) := by
  intro text htext
  obtain ⟨channel, -, rfl⟩ := Channels.mem_texts.1 htext
  exact ⟨channel, rfl⟩

theorem areIds_singleton (channel : ChannelId) : AreIds (.singleton channel.text) := by
  intro text htext
  rcases SortedSet.mem_insert.1 htext with rfl | hempty
  · exact ⟨channel, rfl⟩
  · cases hempty

theorem AreIds.exists_readAll {texts : SortedSet String} (h : AreIds texts) :
    ∃ channels, Channels.readAll texts = .ok channels := by
  have hread : ∀ text ∈ texts.keys,
      ∃ channel, (Ident.parse text : Except IdentError ChannelId) = .ok channel := by
    intro text htext
    obtain ⟨channel, rfl⟩ := h text htext
    exact ⟨channel, channel.parse_text⟩
  obtain ⟨ids, hids⟩ := exists_mapM_eq_ok hread
  unfold Channels.readAll
  rw [hids]
  exact ⟨_, rfl⟩

end Texts

end PushQueue.Mailbox

namespace PushQueue

def ChannelUpdate.AreIds : ChannelUpdate → Prop
  | .add channels => Mailbox.AreIds channels
  | .remove _ => True

namespace Mailbox

variable {rows rows' : MessageRows} {k : RowKey} {content : RowContent} {p : String}

theorem AreIds.apply {update : ChannelUpdate} {channels : SortedSet String}
    (h : AreIds channels) (hupdate : update.AreIds) : AreIds (update.apply channels) := by
  intro text htext
  cases update with
  | add more =>
    rcases SortedSet.mem_union.1 htext with hkept | hadded
    · exact h text hkept
    · exact hupdate text hadded
  | remove less => exact h text (SortedSet.mem_of_mem_diff htext)

section Rows

inductive Legible (k : RowKey) (content : RowContent) : Prop
  | profile : k = RowKey.metadata k.partition → AreIds (content.channels.getD .empty) →
    (∀ w ∈ content.readPosition, w ≤ SortKey.maxPosition) → Legible k content
  | notification (place : Place) : place.rowKey k.partition = k → content.timestamp.isSome →
    content.updateId.isSome → Legible k content

theorem legible_metadata_iff :
    Legible (RowKey.metadata p) content ↔ AreIds (content.channels.getD .empty) ∧
      ∀ w ∈ content.readPosition, w ≤ SortKey.maxPosition := by
  constructor
  · rintro (⟨-, hids, hposition⟩ | ⟨place, hplace, -⟩)
    · exact ⟨hids, hposition⟩
    · exact absurd hplace (place.rowKey_ne_metadata p)
  · rintro ⟨hids, hposition⟩
    exact .profile rfl hids hposition

def AllLegible (rows : MessageRows) : Prop :=
  ∀ k content, rows.get? k = some content → Legible k content

theorem allLegible_empty : AllLegible .empty := nofun

theorem AllLegible.insert (h : AllLegible rows) (hrow : Legible k content) :
    AllLegible (rows.insert k content) := by
  intro k' content' hget
  rw [SortedMap.get?_insert] at hget
  split at hget
  next heq =>
    cases hget
    exact heq ▸ hrow
  next => exact h k' content' hget

theorem AllLegible.insertAll {written : List MessageRow} (h : AllLegible rows)
    (hwritten : ∀ row ∈ written, Legible row.key row.content) :
    AllLegible (insertAll rows written) := by
  induction written generalizing rows with
  | nil => exact h
  | cons row rest ih =>
    obtain ⟨hrow, hrest⟩ := List.forall_mem_cons.1 hwritten
    exact ih (h.insert hrow) hrest

theorem AllLegible.mono (h : AllLegible rows)
    (hsub : ∀ k content, rows'.get? k = some content → rows.get? k = some content) :
    AllLegible rows' := fun k content hget => h k content (hsub k content hget)

theorem AllLegible.upsert {name : String} {fresh : RowContent} {merge : RowContent → RowContent}
    (h : AllLegible rows) (hfresh : Legible k fresh)
    (hmerge : ∀ stored, Legible k stored → Legible k (merge stored)) :
    AllLegible (Store.upsert name k fresh merge rows) := by
  unfold Store.upsert
  split
  next => exact h.insert hfresh
  next stored hget =>
    split
    · exact h
    · exact h.insert (hmerge stored (h k stored hget))

theorem AllLegible.areIds_channels (h : AllLegible rows) (p : String) :
    AreIds (((rows.get? (RowKey.metadata p)).bind RowContent.channels).getD .empty) := by
  cases hget : rows.get? (RowKey.metadata p) with
  | none => exact areIds_empty
  | some content => exact (legible_metadata_iff.1 (h _ content hget)).1

theorem AllLegible.tidy (h : AllLegible rows) (p : String) : Tidy rows p := by
  rintro k content hget rfl hk
  rcases h k content hget with ⟨hmetadata, -⟩ | ⟨place, hplace, htimestamp, hupdateId⟩
  · exact absurd hmetadata hk
  · exact ⟨place, hplace, htimestamp, hupdateId⟩

theorem legible_rowFor {t : TableHandle} {now : Instant} {n : Notification} {key : SortKey}
    {row : MessageRow} (h : rowFor t now p n = .ok (key, row)) :
    row.key.partition = p ∧ Legible row.key row.content := by
  cases hplace : n.place? now with
  | none =>
    obtain ⟨error, herror⟩ := rowFor_of_no_place (t := t) (p := p) hplace
    rw [herror] at h
    cases h
  | some place =>
    obtain ⟨content, hrow, htimestamp, hupdateId, -⟩ := rowFor_of_place (t := t) (p := p) hplace
    rw [hrow] at h
    cases h
    exact ⟨rfl, .notification place rfl htimestamp hupdateId⟩

end Rows

end Mailbox

end PushQueue
