import PushQueue.Proofs.Mailbox.Paging

/-!
Progress through the queue. Every page lies behind the watermark that it is read with, and the
position that it gives is the last one on it; read with that position, the next page lies behind
this one. So no row is read twice, and a page is empty after at most one call more than there are
rows.
-/

namespace PushQueue.Mailbox

variable {t : TableHandle} {u : SubscriberId} {e e' : Engine} {rows : MessageRows} {p : String}
  {limit : Nat} {watermark : Option UInt64} {page : Page}
  {reads : List (Option UInt64 × Page)}

/-- Reads of the queue one after the other until a page is empty, each with the watermark that it is
asked with: the first with a given one, and every other with the position that the page before it
gives. -/
inductive Reads (t : TableHandle) (u : SubscriberId) (limit : Nat) :
    Engine → Option UInt64 → List (Option UInt64 × Page) → Prop
  | last {e e' : Engine} {watermark : Option UInt64} {page : Page}
      (hread : Action.run (fetchAfter t u watermark limit) e = (.ok page, e'))
      (hempty : page.messages = []) : Reads t u limit e watermark [(watermark, page)]
  | next {e e' : Engine} {watermark : Option UInt64} {page : Page}
      {reads : List (Option UInt64 × Page)}
      (hread : Action.run (fetchAfter t u watermark limit) e = (.ok page, e'))
      (hsome : page.messages ≠ []) (hrest : Reads t u limit e' page.timestamp reads) :
      Reads t u limit e watermark ((watermark, page) :: reads)

theorem Paged.exists_reads {pages : List (List Notification)}
    (h : Paged t u limit e watermark pages) : ∃ reads, Reads t u limit e watermark reads := by
  induction h with
  | stop hread hempty => exact ⟨_, .last hread hempty⟩
  | next hread hsome _ ih =>
    obtain ⟨reads, hreads⟩ := ih
    exact ⟨_, .next hread hsome hreads⟩

structure Page.Advances (page : Page) (watermark : Option UInt64) : Prop where
  positioned : ∀ m ∈ page.messages, m.position = some m.rank
  ordered : page.messages.Pairwise fun a b => a.rank ≤ b.rank
  behind : ∀ m ∈ page.messages, ∀ w ∈ watermark, w < m.rank
  timestamp : page.messages ≠ [] → ∃ q, page.timestamp = some q ∧
    (∃ m ∈ page.messages, m.rank = q) ∧ (∀ m ∈ page.messages, m.rank ≤ q) ∧ ∀ w ∈ watermark, w < q

theorem Tidy.page_of_read (h : Tidy rows (t.partition u))
    (hrows : e.store.messageRows t.table = .ok rows) (hfault : e.fault = none)
    (hwatermark : ∀ w ∈ watermark, w ≤ SortKey.maxPosition)
    (hread : Action.run (fetchAfter t u watermark limit) e = (.ok page, e')) :
    page.messages = ((backlog rows (t.partition u) u).queue watermark).take limit ∧
      page.timestamp = lastPosition page.messages ∧
      e'.store.messageRows t.table = .ok rows ∧ e'.fault = none := by
  obtain ⟨stats, hrun⟩ := h.run_fetchAfter hrows hfault hwatermark limit
  rw [hread] at hrun
  cases hrun
  exact ⟨rfl, rfl, hrows, hfault⟩

theorem Tidy.advances_of_read (h : Tidy rows (t.partition u))
    (hrows : e.store.messageRows t.table = .ok rows) (hfault : e.fault = none)
    (hwatermark : ∀ w ∈ watermark, w ≤ SortKey.maxPosition)
    (hread : Action.run (fetchAfter t u watermark limit) e = (.ok page, e')) :
    page.Advances watermark ∧
      (page.messages ≠ [] → (∀ q ∈ page.timestamp, q ≤ SortKey.maxPosition) ∧
        (page.messages ++ (backlog rows (t.partition u) u).queue page.timestamp).Sublist
          ((backlog rows (t.partition u) u).queue watermark)) := by
  obtain ⟨hmessages, htimestamp, -, -⟩ := h.page_of_read hrows hfault hwatermark hread
  have hmem {m : Notification} (hm : m ∈ page.messages) :
      m ∈ (backlog rows (t.partition u) u).queue watermark :=
    List.mem_of_mem_take (hmessages ▸ hm)
  have hordered : page.messages.Pairwise fun a b => a.rank ≤ b.rank := by
    rw [hmessages]
    exact (pairwise_queue rows (t.partition u) u watermark).sublist (List.take_sublist _ _)
  rcases List.eq_nil_or_concat page.messages with hnil | ⟨front, last, hpage⟩
  · refine ⟨⟨fun m hm => (mem_queue (hmem hm)).1, hordered, fun m hm => (mem_queue (hmem hm)).2.2,
      fun hsome => absurd hnil hsome⟩, fun hsome => absurd hnil hsome⟩
  · rw [List.concat_eq_append] at hpage
    obtain ⟨hposition, hrank, hnext⟩ := queue_after_page (hmessages.symm.trans hpage)
    have hlast : last ∈ page.messages := by simp [hpage]
    have hgives : page.timestamp = some last.rank := by
      rw [htimestamp, hpage, lastPosition_concat hposition]
    have hgreatest : ∀ m ∈ page.messages, m.rank ≤ last.rank := by
      rw [hpage] at hordered
      intro m hm
      rcases List.mem_append.1 (hpage ▸ hm) with hfront | hlast
      · exact (List.pairwise_append.1 hordered).2.2 m hfront last (by simp)
      · rw [List.mem_singleton.1 hlast]
        exact UInt64.le_refl _
    refine ⟨⟨fun m hm => (mem_queue (hmem hm)).1, hordered, fun m hm => (mem_queue (hmem hm)).2.2,
      fun _ => ⟨last.rank, hgives, ⟨last, hlast, rfl⟩, hgreatest, (mem_queue (hmem hlast)).2.2⟩⟩,
      fun _ => ⟨by simpa [hgives] using hrank, ?_⟩⟩
    rw [hgives, ← hnext, hmessages]
    refine (List.filter_sublist.append_left _).trans ?_
    rw [List.take_append_drop]

/-- What reads make of the queue: their pages lie one behind the other, and each takes some of its
notifications. -/
structure Orderly (queue : List Notification) (watermark : Option UInt64)
    (reads : List (Option UInt64 × Page)) : Prop where
  advances : ∀ r ∈ reads, r.2.Advances r.1
  behind : ∀ r ∈ reads, ∀ m ∈ r.2.messages, ∀ w ∈ watermark, w < m.rank
  apart : reads.Pairwise fun a b => ∀ m ∈ a.2.messages, ∀ n ∈ b.2.messages, m.rank < n.rank
  taken : (reads.flatMap fun r => r.2.messages).Sublist queue
  length_le : reads.length ≤ queue.length + 1

theorem Reads.orderly (hreads : Reads t u limit e watermark reads)
    (h : Tidy rows (t.partition u)) (hrows : e.store.messageRows t.table = .ok rows)
    (hfault : e.fault = none) (hwatermark : ∀ w ∈ watermark, w ≤ SortKey.maxPosition) :
    Orderly ((backlog rows (t.partition u) u).queue watermark) watermark reads := by
  induction hreads with
  | last hread hempty =>
    obtain ⟨hadvances, -⟩ := h.advances_of_read hrows hfault hwatermark hread
    exact ⟨by simpa using hadvances, by simp [hempty], by simp, by simp [hempty], by simp⟩
  | @next e e' watermark page reads hread hsome hrest ih =>
    obtain ⟨-, -, hrows', hfault'⟩ := h.page_of_read hrows hfault hwatermark hread
    obtain ⟨hadvances, hleaves⟩ := h.advances_of_read hrows hfault hwatermark hread
    obtain ⟨hmax, hsublist⟩ := hleaves hsome
    obtain ⟨q, hq, -, hgreatest, hlater⟩ := hadvances.timestamp hsome
    have hrest := ih hrows' hfault' hmax
    have hbehind : ∀ r ∈ reads, ∀ m ∈ r.2.messages, q < m.rank := fun r hr m hm =>
      hrest.behind r hr m hm q hq
    constructor
    case advances => exact List.forall_mem_cons.2 ⟨hadvances, hrest.advances⟩
    case behind =>
      refine List.forall_mem_cons.2 ⟨hadvances.behind, fun r hr m hm w hw => ?_⟩
      exact UInt64.lt_trans (hlater w hw) (hbehind r hr m hm)
    case apart =>
      refine List.pairwise_cons.2 ⟨fun r hr m hm n hn => ?_, hrest.apart⟩
      exact UInt64.lt_of_le_of_lt (hgreatest m hm) (hbehind r hr n hn)
    case taken =>
      rw [List.flatMap_cons]
      exact ((List.Sublist.refl _).append hrest.taken).trans hsublist
    case length_le =>
      have hlength := hsublist.length_le
      have hpos := List.length_pos_iff.2 hsome
      have hle := hrest.length_le
      rw [List.length_append] at hlength
      rw [List.length_cons]
      omega

def messageCount (rows : MessageRows) (p : String) : Nat :=
  (rows.filter fun k _ => k.partition = p && !k.isMetadata).size

theorem length_queue_le (rows : MessageRows) (p : String) (u : SubscriberId)
    (watermark : Option UInt64) :
    ((backlog rows p u).queue watermark).length ≤ messageCount rows p := by
  have hrow {entry : RowKey × RowContent}
      (h : (SortedMap.viewEntry (Place.embedding p) (readBack u) entry).isSome) :
      (entry.1.partition = p && !entry.1.isMetadata) = true := by
    obtain ⟨⟨place, n⟩, hview⟩ := Option.isSome_iff_exists.1 h
    obtain ⟨hkey, -⟩ := SortedMap.viewEntry_eq_some_iff.1 hview
    have hne := place.key.encode_ne_metadata
    simp [← hkey, Place.embedding, Place.rowKey, RowKey.isMetadata, hne]
  have hview : rows.entries.filterMap (SortedMap.viewEntry (Place.embedding p) (readBack u)) =
      (rows.entries.filter fun entry => entry.1.partition = p && !entry.1.isMetadata).filterMap
        (SortedMap.viewEntry (Place.embedding p) (readBack u)) := by
    rw [List.filterMap_filter]
    apply List.filterMap_congr
    intro entry _
    split
    · rfl
    next hother =>
      rw [← Option.not_isSome_iff_eq_none]
      exact fun h => hother (hrow h)
  calc ((backlog rows p u).queue watermark).length
      ≤ (backlog rows p u).messages.entries.length := by
        unfold Backlog.queue
        rw [List.length_map]
        exact List.length_filter_le _ _
    _ ≤ messageCount rows p := by
        unfold backlog SortedMap.view
        simp only
        rw [hview]
        exact List.length_filterMap_le _ _

theorem nodup_queue (rows : MessageRows) (p : String) (u : SubscriberId)
    (watermark : Option UInt64) :
    (((backlog rows p u).queue watermark).map fun m => (m.position, m.channel)).Nodup := by
  rw [List.Nodup, List.pairwise_map]
  refine (ascending_queue rows p u watermark).imp fun {a b} hlt heq => ?_
  obtain ⟨hposition, hchannel⟩ := Prod.mk.inj heq
  rw [Notification.rank, Notification.rank, hposition, hchannel] at hlt
  simp at hlt

/-- Reads of a written partition, each from the position that the one before it gives, come to an
empty page after at most one call more than it has message rows. On the way every page advances, and
the pages lie one behind the other, so that no row is read twice. -/
theorem reads_advance_and_end (hrows : e.store.messageRows t.table = .ok rows)
    (hwritten : IsWritten rows (t.partition u)) (hlimit : 1 ≤ limit)
    (hwatermark : ∀ w ∈ watermark, w ≤ SortKey.maxPosition) :
    (∃ reads, Reads t u limit { e with fault := none } watermark reads) ∧
    ∀ reads, Reads t u limit { e with fault := none } watermark reads →
      (∀ r ∈ reads, r.2.Advances r.1) ∧
      (reads.Pairwise fun a b => ∀ m ∈ a.2.messages, ∀ n ∈ b.2.messages, m.rank < n.rank) ∧
      ((reads.flatMap fun r => r.2.messages).map fun m => (m.position, m.channel)).Nodup ∧
      reads.length ≤ messageCount rows (t.partition u) + 1 := by
  have htidy := hwritten.tidy
  obtain ⟨pages, hpages, -, -⟩ :=
    htidy.exists_pages (e := { e with fault := none }) hlimit hrows rfl hwatermark
  refine ⟨hpages.exists_reads, fun reads hreads => ?_⟩
  have horderly := hreads.orderly htidy hrows rfl hwatermark
  refine ⟨horderly.advances, horderly.apart, ?_, ?_⟩
  · exact (nodup_queue rows (t.partition u) u watermark).sublist (horderly.taken.map _)
  · exact Nat.le_trans horderly.length_le
      (Nat.succ_le_succ (length_queue_le rows (t.partition u) u watermark))

/-- Pages of one row each: two with a row, and an empty one after them. -/
theorem reads_advance_and_end_january :
    IsWritten januaryRows (januaryTable.partition ⟨⟨1⟩⟩) ∧
    ∃ reads, Reads januaryTable ⟨⟨1⟩⟩ 1 januaryRowsEngine (some 7) reads ∧
      reads.map (fun r => (r.1, r.2.messages.map Notification.position, r.2.timestamp)) =
        [(some 7, [some 100], some 100), (some 100, [some 101], some 101),
          (some 101, [], none)] ∧
      (∀ r ∈ reads, r.2.Advances r.1) ∧
      (reads.Pairwise fun a b => ∀ m ∈ a.2.messages, ∀ n ∈ b.2.messages, m.rank < n.rank) ∧
      reads.length ≤ 3 := by
  have hwatermark : ∀ w ∈ some (7 : UInt64), w ≤ SortKey.maxPosition := by
    rintro w ⟨⟩
    decide
  let read (watermark : UInt64) := Action.run (fetchAfter januaryTable ⟨⟨1⟩⟩ (some watermark) 1)
  let page (n : Notification) : Page := ⟨n.position, [n]⟩
  let first : Notification := { queuedNotification with source := .stored, updateId := some "m" }
  let second : Notification := { first with position := some 101 }
  have hreads : Reads januaryTable ⟨⟨1⟩⟩ 1 januaryRowsEngine (some 7)
      [(some 7, page first), (some 100, page second), (some 101, ⟨none, []⟩)] := by
    have hfirst : (read 7 januaryRowsEngine).1 = .ok (page first) := by decide +kernel
    have hsecond : (read 100 (read 7 januaryRowsEngine).2).1 = .ok (page second) := by
      decide +kernel
    have hlast : (read 101 (read 100 (read 7 januaryRowsEngine).2).2).1 = .ok ⟨none, []⟩ := by
      decide +kernel
    exact .next (Prod.ext hfirst rfl) (List.cons_ne_nil _ _)
      (.next (Prod.ext hsecond rfl) (List.cons_ne_nil _ _) (.last (Prod.ext hlast rfl) rfl))
  obtain ⟨-, hall⟩ := reads_advance_and_end messageRows_januaryRowsEngine
    isWritten_januaryRows (Nat.le_refl 1) hwatermark
  obtain ⟨hadvances, hapart, -, hlength⟩ := hall _ hreads
  have hcount : messageCount januaryRows (januaryTable.partition ⟨⟨1⟩⟩) = 2 := by decide +kernel
  rw [hcount] at hlength
  exact ⟨isWritten_januaryRows, _, hreads, rfl, hadvances, hapart, hlength⟩

end PushQueue.Mailbox
