import PushQueue.Proofs.Table.Columns

/-!
What reads of a message table give after calls that write it: the row that stands under a key, and
the first rows of a partition inside a bound. Both the rows and the columns of the table are read.
-/

namespace PushQueue

/-- The first rows of a partition inside a range, in the order of the bytes of their sort keys. -/
structure IsPage (held : RowKey → Option RowContent) (p : String) (range : KeyRange) (limit : Nat)
    (page : List MessageRow) : Prop where
  inside : ∀ row ∈ page, held row.key = some row.content ∧ row.key.partition = p ∧
    range.contains row.key.sortKey = true
  ascending : page.Pairwise fun a b => Text.compareBytes a.key.sortKey b.key.sortKey = .lt
  length_le : page.length ≤ limit
  /-- A row that is left out comes after a full page. -/
  smallest : ∀ row : MessageRow, held row.key = some row.content → row.key.partition = p →
    range.contains row.key.sortKey = true → row ∈ page ∨ page.length = limit ∧
      ∀ first ∈ page, Text.compareBytes first.key.sortKey row.key.sortKey = .lt

structure ReadsAs (held : RowKey → Option RowContent)
    (get : RowKey → Option (Option RowContent))
    (query : String → KeyRange → Nat → Option (List MessageRow)) : Prop where
  get : ∀ k, get k = some (held k)
  query : ∀ p range limit, ∃ page, query p range limit = some page ∧ IsPage held p range limit page

section Pages

variable {rows : MessageRows} {held : RowKey → Option RowContent}

theorem mem_take_or_forall_of_pairwise {α : Type} {R : α → α → Prop} {l : List α} {x : α}
    (hl : l.Pairwise R) (hx : x ∈ l) (n : Nat) :
    x ∈ l.take n ∨ (l.take n).length = n ∧ ∀ a ∈ l.take n, R a x := by
  rw [← List.take_append_drop n l] at hl hx
  rcases List.mem_append.1 hx with htake | hdrop
  · exact .inl htake
  · refine .inr ⟨List.length_take_of_le ?_, fun a ha =>
      (List.pairwise_append.1 hl).2.2 a ha x hdrop⟩
    have hpos := List.length_pos_of_mem hdrop
    rw [List.length_drop] at hpos
    omega

theorem compareBytes_sortKey_of_lt {a b : MessageRow} (h : compare a.key b.key = .lt)
    (hp : a.key.partition = b.key.partition) :
    Text.compareBytes a.key.sortKey b.key.sortKey = .lt := by
  obtain ⟨⟨p, x⟩, _⟩ := a
  obtain ⟨⟨q, y⟩, _⟩ := b
  obtain rfl : p = q := hp
  rwa [RowKey.compare_mk] at h

theorem isPage_take_select (h : ∀ k, rows.get? k = held k) (p : String) (range : KeyRange)
    (limit : Nat) : IsPage held p range limit ((Store.select rows p range).take limit) := by
  have hselected (row : MessageRow) : row ∈ Store.select rows p range ↔
      held row.key = some row.content ∧ row.key.partition = p ∧
        range.contains row.key.sortKey = true := by
    rw [Store.mem_select_iff, h]
  have hpage {row : MessageRow} (hrow : row ∈ (Store.select rows p range).take limit) :=
    (hselected row).1 (List.mem_of_mem_take hrow)
  have hsorted := Store.pairwise_select rows p range
  refine ⟨fun row hrow => hpage hrow, ?_, List.length_take_le _ _, fun row hget hp hrange => ?_⟩
  · refine List.Pairwise.imp_of_mem (fun ha hb hlt => ?_) (hsorted.sublist (List.take_sublist _ _))
    exact compareBytes_sortKey_of_lt hlt ((hpage ha).2.1.trans (hpage hb).2.1.symm)
  · have hmem := (hselected row).2 ⟨hget, hp, hrange⟩
    rcases mem_take_or_forall_of_pairwise hsorted hmem limit with htake | ⟨hfull, hbefore⟩
    · exact .inl htake
    · exact .inr ⟨hfull, fun first hfirst => compareBytes_sortKey_of_lt (hbefore first hfirst)
        ((hpage hfirst).2.1.trans hp.symm)⟩

end Pages

namespace ColumnRows

variable {rows : MessageRows} {t : ColumnRows}

theorem eq_mapValues (h : ∀ k, t.get? k = (rows.get? k).map Columns.ofContent) :
    t = rows.mapValues Columns.ofContent :=
  SortedMap.ext_get? fun k => (h k).trans (SortedMap.get?_mapValues _ _ _).symm

theorem getRow_mapValues (rows : MessageRows) (k : RowKey) :
    getRow (rows.mapValues .ofContent) k = some (rows.get? k) := by
  rw [getRow, SortedMap.get?_mapValues]
  cases rows.get? k with
  | none => rfl
  | some row => exact congrArg (Option.map some) (Columns.content?_ofContent row)

theorem query_mapValues (rows : MessageRows) (p : String) (range : KeyRange) (limit : Nat) :
    query (rows.mapValues .ofContent) p range limit =
      some ((Store.select rows p range).take limit) := by
  have hread (l : List (RowKey × RowContent)) :
      (l.map fun e => (e.1, Columns.ofContent e.2)).mapM
        (fun e => e.2.content?.map fun row => MessageRow.mk e.1 row) =
      some (l.map fun e => ⟨e.1, e.2⟩) := by
    induction l with
    | nil => rfl
    | cons e rest ih =>
      rw [List.map_cons, List.mapM_cons, ih, Columns.content?_ofContent]
      rfl
  rw [query, SortedMap.filter_mapValues, SortedMap.mapValues, ← List.map_take, hread, Store.select,
    List.map_take]

end ColumnRows

open RowCall (held)

/-- Calls on a message table without rows, which lead from a store to another and to columns `t`. -/
structure ReadBack (name : String) (calls : List RowCall) (s s' : Store) (t : ColumnRows) :
    Prop where
  performs : RowCall.performAll name calls s = .ok s'
  /-- The rest of the store is as before, and each key of the table has one row. -/
  rows : ∃ rows : MessageRows, s' = s.setTable name (.messages rows) ∧ rows.keys.Nodup
  reads : ReadsAs (held · calls) (fun k => (s'.getRow name k).toOption)
    fun p range limit => (s'.query name p range limit).toOption
  writes : ColumnRows.performAll name calls .empty = some t
  keys : t.keys.Nodup
  column_reads : ReadsAs (held · calls) t.getRow t.query
  /-- A row is the one that was put last under its key, or the empty row of an update that found
  none, changed by the updates since then and by nothing else. -/
  origin : ∀ k row, held k calls = some row ↔ ∃ base, RowCall.GoesBackTo k calls row base
  message : ∀ k row base, RowCall.GoesBackTo k calls row base → RowCall.SameMessage base row

section Runs

variable {name : String} {s : Store} {calls : List RowCall}

theorem readsAs_of_rows {s' : Store} {rows : MessageRows} (h : s'.messageRows name = .ok rows)
    (hheld : ∀ k, rows.get? k = held k calls) :
    ReadsAs (held · calls) (fun k => (s'.getRow name k).toOption)
      fun p range limit => (s'.query name p range limit).toOption where
  get k := by
    rw [Store.getRow, h, ← hheld]
    rfl
  query p range limit := by
    rw [Store.query_eq h]
    exact ⟨_, rfl, isPage_take_select hheld p range limit⟩

theorem readsAs_of_columns {t : ColumnRows} {rows : MessageRows}
    (h : ∀ k, t.get? k = (held k calls).map .ofContent) (hheld : ∀ k, rows.get? k = held k calls) :
    ReadsAs (held · calls) t.getRow t.query := by
  obtain rfl := ColumnRows.eq_mapValues fun k => (h k).trans (by rw [hheld])
  refine ⟨fun k => ?_, fun p range limit => ?_⟩
  · rw [ColumnRows.getRow_mapValues, hheld]
  · exact ⟨_, ColumnRows.query_mapValues rows p range limit, isPage_take_select hheld p range limit⟩

theorem exists_readBack (hrows : s.messageRows name = .ok .empty)
    (hname : Store.offersShadowed name = false) (calls : List RowCall) :
    ∃ s' t, ReadBack name calls s s' t := by
  obtain ⟨rows, hperformed, hheld⟩ := RowCall.exists_rows_performAll hrows hname calls
  obtain ⟨t, hwritten, hshows⟩ := ColumnRows.shows_performAll hname calls
  have hvalid := Store.isValid_of_table (Store.messageRows_eq_ok_iff.1 hrows)
  have hrows' := Store.messageRows_setTable hvalid s rows
  exact ⟨_, t, hperformed, ⟨rows, rfl, rows.nodup_keys⟩, readsAs_of_rows hrows' hheld, hwritten,
    t.nodup_keys, readsAs_of_columns hshows hheld, fun _ _ => RowCall.held_eq_some_iff,
    fun _ _ _ h => h.sameMessage⟩

end Runs

section Shadowed

def channelsThenPosition : List RowCall :=
  [.updateChannels "p" (.add (.singleton "c")) 10, .setReadPosition "p" 7 20]

def emptyTable (name : String) : Store := Store.empty.setTable name (.messages .empty)

theorem messageRows_emptyTable {name : String} (h : TableName.isValid name = true) :
    (emptyTable name).messageRows name = .ok .empty :=
  Store.messageRows_setTable h Store.empty .empty

theorem getRow_channelsThenPosition :
    ((RowCall.performAll "excluded" channelsThenPosition (emptyTable "excluded")).toOption.bind
      fun s' => (s'.getRow "excluded" (.metadata "p")).toOption) =
    some (some { channels := some (.singleton "c"), expiry := 10 }) := by
  decide +kernel

theorem held_channelsThenPosition : held (.metadata "p") channelsThenPosition =
    some { channels := some (.singleton "c"), readPosition := some 7, expiry := 20 } := by
  decide +kernel

end Shadowed

/-- A message table is an ordered map. Whatever calls put, change, delete and sweep its rows, a read
of a key gives what was put there last with the updates since then, and a read of a partition gives
its first rows inside the bound; and both are the same when the rows are read from JSON texts and
signed integers. But where the name of the table shadows the rows that are offered, an update of a
stored row is lost. -/
theorem rows_read_back_iff (name : String) :
    (∀ s calls, s.messageRows name = .ok .empty → ∃ s' t, ReadBack name calls s s' t) ↔
      name ≠ "excluded" := by
  constructor
  · rintro h rfl
    obtain ⟨s', t, hread⟩ := h _ channelsThenPosition (messageRows_emptyTable (by decide))
    have hget := getRow_channelsThenPosition
    rw [hread.performs] at hget
    have hheld := (hread.reads.get (.metadata "p")).symm.trans hget
    rw [held_channelsThenPosition] at hheld
    revert hheld
    decide
  · exact fun hname s calls hrows => exists_readBack hrows (decide_eq_false hname) calls

/-- Numbers with the highest bit set, and a set and a map without members. -/
def boundaryRow : RowContent where
  channels := some .empty
  headers := some .empty
  ttl := some 9223372036854775808
  timestamp := some 18446744073709551615
  updateId := some ""
  expiry := 18446744073709551615

def boundaryCalls : List RowCall :=
  [.put ⟨⟨"p", "k"⟩, boundaryRow⟩, .delete ⟨"p", "k"⟩ (some "v"),
    .setReadPosition "p" 9223372036854775808 9223372036854775808]

theorem rows_read_back_iff_boundary :
    "message_2024_01" ≠ "excluded" ∧
    (emptyTable "message_2024_01").messageRows "message_2024_01" = .ok .empty ∧
    held (.metadata "p") boundaryCalls =
      some { readPosition := some 9223372036854775808, expiry := 9223372036854775808 } ∧
    held ⟨"p", "k"⟩ boundaryCalls = some boundaryRow ∧
    ∃ s' t, ReadBack "message_2024_01" boundaryCalls (emptyTable "message_2024_01") s' t := by
  have hname : "message_2024_01" ≠ "excluded" := by decide
  have hrows := @messageRows_emptyTable "message_2024_01" (by decide)
  exact ⟨hname, hrows, by decide +kernel, by decide +kernel,
    (rows_read_back_iff _).2 hname _ boundaryCalls hrows⟩

/-- Both updates succeed, and of the second one nothing is read back. -/
theorem position_lost_in_shadowed :
    (emptyTable "excluded").messageRows "excluded" = .ok .empty ∧
    ((RowCall.performAll "excluded" channelsThenPosition (emptyTable "excluded")).toOption.bind
      fun s' => (s'.getRow "excluded" (.metadata "p")).toOption) ≠
    some (held (.metadata "p") channelsThenPosition) := by
  refine ⟨messageRows_emptyTable (by decide), ?_⟩
  rw [getRow_channelsThenPosition, held_channelsThenPosition]
  decide

end PushQueue
