import PushQueue.Channels
import PushQueue.Proofs.Engine
import PushQueue.Proofs.Ident
import PushQueue.Proofs.SortedMap
import PushQueue.Proofs.Store

/-!
The channel set of a subscriber. What is answered about it depends on the metadata row alone, and a
set that was saved is answered as it was.
-/

namespace PushQueue.Channels

variable {t : TableHandle} {u : SubscriberId} {e : Engine} {rows : MessageRows} {p : String}
  {store : Store} {now : Instant} {channels : SortedSet ChannelId}
  {answer : Bool × SortedSet ChannelId}

section Texts

def texts (channels : SortedSet ChannelId) : SortedSet String :=
  SortedSet.ofList (channels.keys.map Ident.text)

theorem mem_texts {text : String} :
    text ∈ (texts channels).keys ↔ ∃ channel ∈ channels.keys, channel.text = text :=
  SortedSet.mem_ofList.trans List.mem_map

theorem readAll_texts (channels : SortedSet ChannelId) :
    readAll (texts channels) = .ok channels := by
  have hread : ∀ text ∈ (texts channels).keys,
      ∃ channel, (Ident.parse text : Except IdentError ChannelId) = .ok channel := by
    intro text htext
    obtain ⟨channel, -, rfl⟩ := mem_texts.1 htext
    exact ⟨channel, channel.parse_text⟩
  obtain ⟨ids, hids⟩ := exists_mapM_eq_ok hread
  unfold readAll
  rw [hids]
  -- The set is sorted as texts and again as ids, so that only membership is compared.
  refine congrArg Except.ok (SortedSet.ext_mem fun channel => ?_)
  rw [SortedSet.mem_ofList, mem_of_mapM_eq_ok hids]
  constructor
  · rintro ⟨text, htext, hparse⟩
    obtain ⟨channel', hmem, rfl⟩ := mem_texts.1 htext
    rw [Ident.parse_text] at hparse
    cases hparse
    exact hmem
  · intro hmem
    exact ⟨channel.text, mem_texts.2 ⟨channel, hmem, rfl⟩, channel.parse_text⟩

theorem text_mem_texts {channel : ChannelId} :
    channel.text ∈ (texts channels).keys ↔ channel ∈ channels.keys := by
  rw [mem_texts]
  constructor
  · rintro ⟨channel', hmem, htext⟩
    rwa [← Ident.text_injective htext]
  · intro hmem
    exact ⟨channel, hmem, rfl⟩

theorem contains_texts (channels : SortedSet ChannelId) (channel : ChannelId) :
    (texts channels).contains channel.text = channels.contains channel := by
  rw [Bool.eq_iff_iff, SortedSet.contains_iff, SortedSet.contains_iff, text_mem_texts]

theorem texts_insert (channels : SortedSet ChannelId) (channel : ChannelId) :
    texts (channels.insert channel ()) = (texts channels).insert channel.text () := by
  apply SortedSet.ext_mem
  intro text
  simp only [mem_texts, SortedSet.mem_insert, or_and_right, exists_or, exists_eq_left']

theorem texts_erase (channels : SortedSet ChannelId) (channel : ChannelId) :
    texts (channels.erase channel) = (texts channels).erase channel.text := by
  apply SortedSet.ext_mem
  intro text
  rw [mem_texts, SortedSet.mem_erase, mem_texts]
  constructor
  · rintro ⟨channel', hmem, rfl⟩
    obtain ⟨hne, hmem⟩ := SortedSet.mem_erase.1 hmem
    exact ⟨fun htext => hne (Ident.text_injective htext), channel', hmem, rfl⟩
  · rintro ⟨hne, channel', hmem, rfl⟩
    refine ⟨channel', SortedSet.mem_erase.2 ⟨?_, hmem⟩, rfl⟩
    rintro rfl
    exact hne rfl

end Texts

section Answers

def profile (rows : MessageRows) (p : String) : Except StoreError (Bool × SortedSet ChannelId) :=
  match rows.get? (RowKey.metadata p) with
  | none => .ok (false, .empty)
  | some content => (readAll (content.channels.getD .empty)).map fun channels => (true, channels)

theorem profile_insert {content : RowContent}
    (h : content.channels = some (texts channels)) :
    profile (rows.insert (RowKey.metadata p) content) p = .ok (true, channels) := by
  unfold profile
  rw [SortedMap.get?_insert, if_pos rfl]
  simp only [h, Option.getD_some, readAll_texts]
  rfl

theorem all_of_gives (h : (all t u).Gives e answer store) :
    store = e.store ∧ ∃ rows, e.store.messageRows t.table = .ok rows ∧
      profile rows (t.partition u) = .ok answer := by
  obtain ⟨read, e₁, hread, hrest⟩ := h.of_tracked.of_bind
  obtain ⟨hrow, hstore⟩ := hread.of_read
  obtain ⟨rows, hrows, rfl⟩ := map_eq_ok_iff.1 hrow
  unfold profile
  cases hget : rows.get? (RowKey.metadata (t.partition u)) with
  | none =>
    rw [hget] at hrest
    obtain ⟨rfl, rfl⟩ := Action.Gives.of_pure hrest
    exact ⟨hstore, rows, hrows, by rw [hget]⟩
  | some content =>
    rw [hget] at hrest
    obtain ⟨channels, hread, hpure⟩ := Action.Gives.of_ofExcept_bind hrest
    obtain ⟨rfl, rfl⟩ := hpure.of_pure
    exact ⟨hstore, rows, hrows, by simp only [hget, hread]; rfl⟩

theorem run_all (hrows : e.store.messageRows t.table = .ok rows) (hfault : e.fault = none)
    (u : SubscriberId) :
    ∃ stats, Action.run (all t u) e = (profile rows (t.partition u), { e with stats }) := by
  have hrow : e.store.getRow t.table (RowKey.metadata (t.partition u)) =
      .ok (rows.get? (RowKey.metadata (t.partition u))) := by
    rw [Store.getRow, hrows]
    rfl
  apply Action.run_tracked
  simp only [Action.run_bind, Action.run_read hfault, hrow, profile]
  cases rows.get? (RowKey.metadata (t.partition u)) with
  | none => rfl
  | some content =>
    simp only [Action.run_ofExcept_bind]
    cases readAll (content.channels.getD .empty) <;> rfl

/-- The answer about a subscriber when no failure is to come. -/
def Reports (t : TableHandle) (u : SubscriberId) (e : Engine)
    (answer : Bool × SortedSet ChannelId) : Prop :=
  (Action.run (all t u) { e with fault := none }).1 = .ok answer

theorem reports_iff (hrows : e.store.messageRows t.table = .ok rows) :
    Reports t u e answer ↔ profile rows (t.partition u) = .ok answer := by
  obtain ⟨stats, hrun⟩ := run_all (e := { e with fault := none }) hrows rfl u
  rw [Reports, hrun]

end Answers

section Saves

theorem save_of_gives (h : (save t now u channels).Gives e () store) :
    ∃ rows content, e.store.messageRows t.table = .ok rows ∧
      profile (rows.insert (RowKey.metadata (t.partition u)) content) (t.partition u) =
        .ok (true, channels) ∧
      store = e.store.setTable t.table
        (.messages (rows.insert (RowKey.metadata (t.partition u)) content)) := by
  obtain ⟨rows, hrows, -, hstore⟩ := Store.exists_rows_of_updateMessages h.of_tracked.of_call
  exact ⟨rows, _, hrows, profile_insert rfl, hstore⟩

end Saves

end PushQueue.Channels
