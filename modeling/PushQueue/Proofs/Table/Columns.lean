import PushQueue.Proofs.Json.Text
import PushQueue.Proofs.Table.Calls

/-!
Rows as columns of a table. Sets and maps stand there as JSON texts and numbers as signed integers
of 64 bits; what a row lacks is null. Every row is read back from its columns as it was, and a call
on the columns does to them what the call does to the rows.
-/

namespace PushQueue

structure Columns where
  channels : Option String := none
  readPosition : Option Int64 := none
  headers : Option String := none
  data : Option String := none
  ttl : Option Int64 := none
  timestamp : Option Int64 := none
  updateId : Option String := none
  expiry : Int64

namespace Columns

def channelsText (channels : SortedSet String) : String :=
  (Json.list .string channels.toList).render

def readChannels? (text : String) : Option (SortedSet String) :=
  ((Json.parse? text).bind Json.asStrings?).map SortedSet.ofList

def headersText (headers : SortedMap String String) : String := (Json.ofStringMap headers).render

def readHeaders? (text : String) : Option (SortedMap String String) :=
  (Json.parse? text).bind Json.asStringMap?

theorem readChannels?_channelsText (channels : SortedSet String) :
    readChannels? (channelsText channels) = some channels := by
  have hkeys : SortedSet.ofList channels.toList = channels := by
    refine Eq.trans (congrArg SortedMap.ofList ?_) (SortedMap.ofList_entries channels)
    rw [SortedSet.toList, SortedMap.keys, List.map_map]
    exact List.map_id _
  rw [readChannels?, channelsText, Json.parse?_render_strings, Option.bind_some,
    Json.asStrings?_list, Option.map_some, hkeys]

theorem readHeaders?_of_perm {headers : SortedMap String String} {entries : List (String × String)}
    (h : entries.Perm headers.entries) :
    readHeaders? (Json.object (entries.map fun e => (e.1, .string e.2))).render = some headers := by
  rw [readHeaders?, Json.parse?_render_strings_of_perm h, Option.bind_some,
    Json.asStringMap?_ofStringMap]

theorem readHeaders?_headersText (headers : SortedMap String String) :
    readHeaders? (headersText headers) = some headers :=
  readHeaders?_of_perm (.refl _)

/-- What a column of text says; null is no value, and not an empty one. -/
def readText? {α : Type} (read : String → Option α) : Option String → Option (Option α)
  | none => some none
  | some text => (read text).map some

theorem readText?_map {α : Type} {read : String → Option α} {write : α → String}
    (h : ∀ a, read (write a) = some a) (value : Option α) :
    readText? read (value.map write) = some value := by
  cases value with
  | none => rfl
  | some a => rw [Option.map_some, readText?, h, Option.map_some]

def ofContent (row : RowContent) : Columns where
  channels := row.channels.map channelsText
  readPosition := row.readPosition.map UInt64.toInt64
  headers := row.headers.map headersText
  data := row.data
  ttl := row.ttl.map UInt64.toInt64
  timestamp := row.timestamp.map UInt64.toInt64
  updateId := row.updateId
  expiry := row.expiry.toInt64

def content? (c : Columns) : Option RowContent := do
  let channels ← readText? readChannels? c.channels
  let headers ← readText? readHeaders? c.headers
  return { channels, readPosition := c.readPosition.map Int64.toUInt64, headers, data := c.data,
           ttl := c.ttl.map Int64.toUInt64, timestamp := c.timestamp.map Int64.toUInt64,
           updateId := c.updateId, expiry := c.expiry.toUInt64 }

theorem content?_ofContent (row : RowContent) : (ofContent row).content? = some row := by
  have hword (w : UInt64) : w.toInt64.toUInt64 = w := UInt64.toUInt64_toInt64 w
  have hwords (w : Option UInt64) : (w.map UInt64.toInt64).map Int64.toUInt64 = w := by
    cases w <;> simp
  simp only [content?, ofContent, readText?_map readChannels?_channelsText,
    readText?_map readHeaders?_headersText, hwords, hword, Option.bind_eq_bind, Option.bind_some,
    Option.pure_def]

def withChannels (channels : SortedSet String) (expiry : UInt64) (c : Columns) : Columns :=
  { c with channels := some (channelsText channels), expiry := expiry.toInt64 }

def withPosition (position expiry : UInt64) (c : Columns) : Columns :=
  { c with readPosition := some position.toInt64, expiry := expiry.toInt64 }

end Columns

/-- A message table as it is stored. -/
abbrev ColumnRows := SortedMap RowKey Columns

namespace ColumnRows

variable {name : String} {t : ColumnRows} {k : RowKey} {held : RowKey → Option RowContent}

def getRow (t : ColumnRows) (k : RowKey) : Option (Option RowContent) :=
  match t.get? k with
  | none => some none
  | some c => c.content?.map some

def query (t : ColumnRows) (partition : String) (range : KeyRange) (limit : Nat) :
    Option (List MessageRow) :=
  ((t.filter fun k _ => k.partition = partition && range.contains k.sortKey).entries.take
    limit).mapM fun e => e.2.content?.map fun row => ⟨e.1, row⟩

/-- Columns that are given no value are null, all but the expiry. -/
def upsert (name : String) (key : RowKey) (write : Columns → Columns) (t : ColumnRows) :
    ColumnRows :=
  Store.upsert name key (write { expiry := 0 }) write t

def perform (name : String) : RowCall → ColumnRows → Option ColumnRows
  | .put row, t => some (t.insert row.key (.ofContent row.content))
  | .putAll rows, t => some (rows.foldl (fun t row => t.insert row.key (.ofContent row.content)) t)
  | .delete key updateId, t =>
    some (t.filter fun k c => !(key = k && (updateId = none || updateId = c.updateId)))
  | .updateChannels partition update expiry, t => do
    let key := RowKey.metadata partition
    let before ← Columns.readText? Columns.readChannels? ((t.get? key).bind Columns.channels)
    return upsert name key (.withChannels (update.apply (before.getD .empty)) expiry) t
  | .setReadPosition partition position expiry, t =>
    some (upsert name (RowKey.metadata partition) (.withPosition position expiry) t)
  | .sweep now, t => some (t.filter fun _ c => !decide (c.expiry < now.toInt64))

def performAll (name : String) (calls : List RowCall) (t : ColumnRows) : Option ColumnRows :=
  calls.foldlM (fun t c => perform name c t) t

/-- The columns show what stands under each key. -/
def Shows (t : ColumnRows) (held : RowKey → Option RowContent) : Prop :=
  ∀ k, t.get? k = (held k).map Columns.ofContent

theorem shows_insert (h : Shows t held) (row : MessageRow) :
    Shows (t.insert row.key (.ofContent row.content)) fun k =>
      (Mailbox.lastAt k [row]).or (held k) := by
  intro k
  rw [SortedMap.get?_insert, h k]
  by_cases hk : row.key = k <;> simp [Mailbox.lastAt, hk]

theorem shows_insertAll (h : Shows t held) (rows : List MessageRow) :
    Shows (rows.foldl (fun t row => t.insert row.key (.ofContent row.content)) t) fun k =>
      (Mailbox.lastAt k rows).or (held k) := by
  induction rows generalizing t held with
  | nil => exact h
  | cons row rest ih =>
    intro k
    refine (ih (shows_insert h row) k).trans ?_
    simp only [Mailbox.lastAt, Option.none_or, Option.or_assoc]

theorem get?_filter_of_shows (h : Shows t held) {p : RowKey → Columns → Bool}
    {q : RowContent → Bool} (hp : ∀ row, p k (.ofContent row) = !q row) :
    (t.filter p).get? k = ((held k).filter fun row => !q row).map Columns.ofContent := by
  rw [SortedMap.get?_filter, h k]
  cases held k with
  | none => rfl
  | some row => cases hq : q row <;> simp [Option.filter, hp, hq]

theorem get?_upsert_of_shows (h : Shows t held) (hname : Store.offersShadowed name = false)
    {edit : RowContent → RowContent} {write : Columns → Columns} {key : RowKey}
    (hwrite : write (.ofContent ((held key).getD {})) = .ofContent (edit ((held key).getD {})))
    (k : RowKey) :
    (upsert name key write t).get? k =
      (if key = k then some (edit ((held k).getD {})) else held k).map Columns.ofContent := by
  rw [upsert, Store.get?_upsert]
  by_cases hk : key = k
  · subst hk
    rw [if_pos rfl, if_pos rfl, h key, Option.map_some, ← hwrite]
    cases held key with
    | none => rfl
    | some row => simp [hname]
  · rw [if_neg hk, if_neg hk, h k]

theorem readChannels?_of_shows (h : Shows t held) (key : RowKey) :
    Columns.readText? Columns.readChannels? ((t.get? key).bind Columns.channels) =
      some ((held key).bind RowContent.channels) := by
  have hstored : (t.get? key).bind Columns.channels =
      ((held key).bind RowContent.channels).map Columns.channelsText := by
    rw [h key]
    cases held key <;> rfl
  rw [hstored, Columns.readText?_map Columns.readChannels?_channelsText]

theorem shows_perform (h : Shows t held) (hname : Store.offersShadowed name = false) (c : RowCall) :
    ∃ t', perform name c t = some t' ∧ ∀ k, t'.get? k = (c.leaves k (held k)).map .ofContent := by
  cases c with
  | put row =>
    refine ⟨_, rfl, fun k => ?_⟩
    rw [RowCall.leaves_of_written rfl fun _ => rfl]
    exact shows_insert h row k
  | putAll rows =>
    refine ⟨_, rfl, fun k => ?_⟩
    rw [RowCall.leaves_of_written rfl fun _ => rfl]
    exact shows_insertAll h rows k
  | delete key updateId => exact ⟨_, rfl, fun k => get?_filter_of_shows h fun row => rfl⟩
  | updateChannels p update expiry =>
    refine ⟨_, congrArg (Option.bind · _) (readChannels?_of_shows h (.metadata p)), fun k => ?_⟩
    rw [RowCall.leaves_of_edit rfl rfl fun _ => rfl]
    have hwrite : Columns.withChannels
        (update.apply (((held (.metadata p)).bind RowContent.channels).getD .empty)) expiry
          (.ofContent ((held (.metadata p)).getD {})) =
        .ofContent (RowCall.withChannels update expiry ((held (.metadata p)).getD {})) := by
      cases held (.metadata p) <;> rfl
    exact get?_upsert_of_shows h hname hwrite k
  | setReadPosition p position expiry =>
    refine ⟨_, rfl, fun k => ?_⟩
    rw [RowCall.leaves_of_edit rfl rfl fun _ => rfl]
    have hwrite (row : RowContent) : Columns.withPosition position expiry (.ofContent row) =
        .ofContent (RowCall.withPosition position expiry row) := rfl
    exact get?_upsert_of_shows h hname (hwrite _) k
  | sweep now => exact ⟨_, rfl, fun k => get?_filter_of_shows h fun row => rfl⟩

/-- Calls on a table without rows leave columns that say what the calls leave under each key. -/
theorem shows_performAll (hname : Store.offersShadowed name = false) (calls : List RowCall) :
    ∃ t, performAll name calls .empty = some t ∧
      ∀ k, t.get? k = (RowCall.held k calls).map .ofContent := by
  induction calls using List.reverseRecOn with
  | nil => exact ⟨.empty, rfl, fun _ => rfl⟩
  | append_singleton calls c ih =>
    obtain ⟨t, hperformed, hshows⟩ := ih
    obtain ⟨t', hmakes, hshows'⟩ := shows_perform hshows hname c
    refine ⟨t', ?_, fun k => ?_⟩
    · rw [performAll] at hperformed ⊢
      rw [List.foldlM_append, hperformed]
      exact (bind_pure (perform name c t)).trans hmakes
    · rw [RowCall.held_concat]
      exact hshows' k

end ColumnRows

end PushQueue
