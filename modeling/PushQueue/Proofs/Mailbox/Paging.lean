import PushQueue.Proofs.Mailbox.Refinement

/-!
Reading the queue page by page. A page says where to go on by the position of its last notification,
while the queue is ordered by position and channel: the pages together are the queue exactly if no
page ends between two notifications of one position.
-/

namespace PushQueue

def Notification.rank (n : Notification) : UInt64 := n.position.getD 0

namespace Mailbox

variable {t : TableHandle} {u : SubscriberId} {e : Engine} {rows : MessageRows} {p : String}
  {limit : Nat} {watermark : Option UInt64} {rest : List Notification} {q : UInt64}

section Queue

theorem rank_of_mem_backlog {entry : Place × Notification} {channel : ChannelId} {inRange}
    (h : entry ∈ (backlog rows p u).messages.entries)
    (hplace : entry.1 = .queued q channel inRange) :
    entry.2.position = some q ∧ entry.2.rank = q := by
  have hposition : entry.2.position = some q := by
    rw [(key_of_mem_backlog h).1, hplace]
    rfl
  refine ⟨hposition, ?_⟩
  rw [Notification.rank, hposition]
  rfl

theorem mem_queue {m : Notification} (h : m ∈ (backlog rows p u).queue watermark) :
    m.position = some m.rank ∧ m.rank ≤ SortKey.maxPosition ∧ ∀ w ∈ watermark, w < m.rank := by
  obtain ⟨entry, hentry, rfl⟩ := List.mem_map.1 h
  obtain ⟨hmem, hafter⟩ := List.mem_filter.1 hentry
  obtain ⟨position, channel, inRange, hplace, hwatermark⟩ := Place.isAfter_spec hafter
  obtain ⟨hposition, hrank⟩ := rank_of_mem_backlog hmem hplace
  rw [hrank]
  exact ⟨hposition, inRange, hwatermark⟩

theorem le_of_compare_lt {a b : UInt64} {c d : ChannelId}
    (h : (compare a b).then (compare c d) = .lt) : a ≤ b := by
  rw [Text.compare_toNat, Ordering.then_eq_lt, Nat.compare_eq_lt, Nat.compare_eq_eq] at h
  rw [UInt64.le_iff_toNat_le]
  omega

theorem ascending_queue (rows : MessageRows) (p : String) (u : SubscriberId)
    (watermark : Option UInt64) :
    ((backlog rows p u).queue watermark).Pairwise fun a b =>
      (compare a.rank b.rank).then (compare a.channel b.channel) = .lt := by
  unfold Backlog.queue
  rw [List.pairwise_map]
  apply List.Pairwise.imp_of_mem _ ((backlog rows p u).messages.ascending.filter _)
  intro a b ha hb hlt
  obtain ⟨hmema, haftera⟩ := List.mem_filter.1 ha
  obtain ⟨hmemb, hafterb⟩ := List.mem_filter.1 hb
  obtain ⟨x, c, hx, hplacea, -⟩ := Place.isAfter_spec haftera
  obtain ⟨y, d, hy, hplaceb, -⟩ := Place.isAfter_spec hafterb
  rw [hplacea, hplaceb, Place.compare_queued] at hlt
  rw [(rank_of_mem_backlog hmema hplacea).2, (rank_of_mem_backlog hmemb hplaceb).2,
    (key_of_mem_backlog hmema).2, (key_of_mem_backlog hmemb).2, hplacea, hplaceb]
  exact hlt

theorem pairwise_queue (rows : MessageRows) (p : String) (u : SubscriberId)
    (watermark : Option UInt64) :
    ((backlog rows p u).queue watermark).Pairwise fun a b => a.rank ≤ b.rank :=
  (ascending_queue rows p u watermark).imp le_of_compare_lt

theorem queue_some (hq : ∀ w ∈ watermark, w ≤ q) :
    (backlog rows p u).queue (some q) =
      ((backlog rows p u).queue watermark).filter fun m => q < m.rank := by
  unfold Backlog.queue
  rw [List.filter_map, List.filter_filter]
  congr 1
  apply List.filter_congr
  intro entry hentry
  cases hplace : entry.1 with
  | topic => simp [Place.isAfter]
  | queued position channel inRange =>
    have hrank := (rank_of_mem_backlog hentry hplace).2
    simp only [Place.isAfter, Option.all_some, Function.comp_apply, hrank]
    by_cases hlt : q < position
    · have hall : watermark.all (fun w => decide (w < position)) = true := by
        rw [Option.all_eq_true]
        intro w hw
        exact decide_eq_true (UInt64.lt_of_le_of_lt (hq w hw) hlt)
      simp [hlt, hall]
    · simp [hlt]

end Queue

section Lists

/-- No multiple of the limit falls between two notifications of one position. -/
def SplitsNoPosition (limit : Nat) (ms : List Notification) : Prop :=
  ∀ j a b, limit ∣ j → 0 < j → ms[j - 1]? = some a → ms[j]? = some b → a.rank ≠ b.rank

theorem splitsNoPosition_of_length_le {ms : List Notification} (h : ms.length ≤ limit) :
    SplitsNoPosition limit ms := by
  intro j a b hdvd hpos _ hb
  have hle := Nat.le_of_dvd hpos hdvd
  have hlt := (List.getElem?_eq_some_iff.1 hb).1
  omega

variable {front back : List Notification} {last : Notification}

theorem splitsNoPosition_append_iff (hlimit : (front ++ [last]).length = limit) :
    SplitsNoPosition limit (front ++ [last] ++ back) ↔
      (∀ b, back[0]? = some b → last.rank ≠ b.rank) ∧ SplitsNoPosition limit back := by
  have hpos : 0 < limit := by
    rw [← hlimit]
    simp
  have hbehind : ∀ j, (front ++ [last] ++ back)[limit + j]? = back[j]? := by
    intro j
    rw [List.getElem?_append_right (by omega), hlimit, Nat.add_sub_cancel_left]
  have hlast : (front ++ [last] ++ back)[limit - 1]? = some last := by
    have hfront : limit - 1 = front.length := by
      simp at hlimit
      omega
    rw [List.getElem?_append_left (by omega), hfront, List.getElem?_concat_length]
  constructor
  · intro h
    refine ⟨fun b hb => h limit last b (Nat.dvd_refl _) hpos hlast ?_, ?_⟩
    · rw [← hb, ← hbehind 0, Nat.add_zero]
    · intro j a b hdvd hjpos ha hb
      refine h (limit + j) a b (Nat.dvd_add (Nat.dvd_refl _) hdvd) (by omega) ?_ ?_
      · rw [← ha, ← hbehind (j - 1)]
        congr 1
        omega
      · rw [hbehind, hb]
  · rintro ⟨hhead, hback⟩ j a b hdvd hjpos ha hb
    have hle := Nat.le_of_dvd hjpos hdvd
    rcases Nat.eq_or_lt_of_le hle with rfl | hlt
    · rw [hlast] at ha
      cases ha
      apply hhead
      rw [← hb, ← hbehind 0, Nat.add_zero]
    · obtain ⟨k, rfl⟩ : ∃ k, j = limit + k := ⟨j - limit, by omega⟩
      have hk : limit + k - 1 = limit + (k - 1) := by omega
      rw [hk, hbehind] at ha
      rw [hbehind] at hb
      exact hback k a b ((Nat.dvd_add_right (Nat.dvd_refl _)).1 hdvd) (by omega) ha hb

theorem splitsNoPosition_iff {ms : List Notification} (hpage : ms.take limit = front ++ [last]) :
    SplitsNoPosition limit ms ↔
      (∀ b, (ms.drop limit)[0]? = some b → last.rank ≠ b.rank) ∧
        SplitsNoPosition limit (ms.drop limit) := by
  rcases Nat.lt_or_ge limit ms.length with hlt | hge
  · have hlength : (front ++ [last]).length = limit := by
      rw [← hpage, List.length_take]
      omega
    have hms : ms = front ++ [last] ++ ms.drop limit := by
      rw [← hpage, List.take_append_drop]
    rw [hms]
    simp only [← hms]
    rw [← splitsNoPosition_append_iff hlength, ← hms]
  · have hdrop : ms.drop limit = [] := List.drop_of_length_le hge
    rw [hdrop]
    have htrivial : SplitsNoPosition limit [] := splitsNoPosition_of_length_le (Nat.zero_le _)
    simp [splitsNoPosition_of_length_le hge, htrivial]

theorem filter_rank_append
    (hsorted : (front ++ [last] ++ back).Pairwise fun a b => a.rank ≤ b.rank) :
    ((front ++ [last] ++ back).filter fun m => last.rank < m.rank) =
      back.filter fun m => last.rank < m.rank := by
  have hpage : ((front ++ [last]).filter fun m => decide (last.rank < m.rank)) = [] := by
    rw [List.filter_eq_nil_iff]
    intro m hm
    have hle : m.rank ≤ last.rank := by
      rcases List.mem_append.1 hm with hfront | hlast
      · have hpage := (List.pairwise_append.1 hsorted).1
        exact (List.pairwise_append.1 hpage).2.2 m hfront last (by simp)
      · rw [List.mem_singleton.1 hlast]
        exact UInt64.le_refl _
    simp [UInt64.not_lt.2 hle]
  rw [List.filter_append, hpage, List.nil_append]

theorem filter_rank_eq_self_iff
    (hsorted : (front ++ [last] ++ back).Pairwise fun a b => a.rank ≤ b.rank) :
    (back.filter fun m => last.rank < m.rank) = back ↔
      ∀ b, back[0]? = some b → last.rank ≠ b.rank := by
  obtain ⟨-, hback, hcross⟩ := List.pairwise_append.1 hsorted
  rw [List.filter_eq_self]
  constructor
  · intro hall b hb heq
    have hlt := of_decide_eq_true (hall b (List.mem_of_getElem? hb))
    rw [heq] at hlt
    exact absurd hlt (UInt64.lt_irrefl _)
  · intro hhead m hm
    have hle : last.rank ≤ m.rank := hcross last (by simp) m hm
    cases back with
    | nil => cases hm
    | cons b back =>
      have hne : last.rank ≠ b.rank := hhead b rfl
      have hleb : last.rank ≤ b.rank := hcross last (by simp) b (by simp)
      have hbm : b.rank ≤ m.rank := by
        rcases List.mem_cons.1 hm with rfl | hm
        · exact UInt64.le_refl _
        · exact (List.pairwise_cons.1 hback).1 m hm
      apply decide_eq_true
      rw [UInt64.lt_iff_toNat_lt]
      rw [UInt64.le_iff_toNat_le] at hleb hbm
      have hne : last.rank.toNat ≠ b.rank.toNat := fun h => hne (UInt64.toNat_inj.1 h)
      omega

/-- A page with what is read after it is the whole list if and only if neither this page nor a later
one ends between two notifications of one position. -/
theorem page_append_eq_iff {ms later : List Notification} (hpage : ms.take limit = front ++ [last])
    (hsorted : ms.Pairwise fun a b => a.rank ≤ b.rank)
    (hsub : later.Sublist ((ms.drop limit).filter fun m => last.rank < m.rank))
    (hlater : later = (ms.drop limit).filter (fun m => last.rank < m.rank) ↔
      SplitsNoPosition limit ((ms.drop limit).filter fun m => last.rank < m.rank)) :
    front ++ [last] ++ later = ms ↔ SplitsNoPosition limit ms := by
  have hsplit : ms = front ++ [last] ++ ms.drop limit := by
    rw [← hpage, List.take_append_drop]
  rw [hsplit] at hsorted
  rw [splitsNoPosition_iff hpage, ← filter_rank_eq_self_iff hsorted]
  nth_rewrite 1 [hsplit]
  rw [List.append_cancel_left_eq]
  constructor
  · intro heq
    rw [heq] at hsub
    have hall := hsub.antisymm List.filter_sublist
    rw [← hall] at hlater
    exact ⟨hall.symm, hlater.1 heq⟩
  · rintro ⟨hall, hsplits⟩
    rw [hall] at hlater
    exact hlater.2 hsplits

end Lists

section Pages

variable {front : List Notification} {last : Notification}

/-- Reads of the queue one after the other, each from the position that the one before gives, until
a page is empty. -/
inductive Paged (t : TableHandle) (u : SubscriberId) (limit : Nat) :
    Engine → Option UInt64 → List (List Notification) → Prop
  | stop {e e' : Engine} {watermark : Option UInt64} {page : Page}
      (hread : Action.run (fetchAfter t u watermark limit) e = (.ok page, e'))
      (hempty : page.messages = []) : Paged t u limit e watermark []
  | next {e e' : Engine} {watermark : Option UInt64} {page : Page}
      {pages : List (List Notification)}
      (hread : Action.run (fetchAfter t u watermark limit) e = (.ok page, e'))
      (hsome : page.messages ≠ []) (hrest : Paged t u limit e' page.timestamp pages) :
      Paged t u limit e watermark (page.messages :: pages)

theorem Paged.unique {pages pages' : List (List Notification)}
    (h : Paged t u limit e watermark pages) (h' : Paged t u limit e watermark pages') :
    pages = pages' := by
  induction h generalizing pages' with
  | stop hread hempty =>
    cases h' with
    | stop => rfl
    | next hread' hsome =>
      rw [hread] at hread'
      cases hread'
      exact absurd hempty hsome
  | next hread hsome hrest ih =>
    cases h' with
    | stop hread' hempty =>
      rw [hread] at hread'
      cases hread'
      exact absurd hempty hsome
    | next hread' hsome' hrest' =>
      rw [hread] at hread'
      cases hread'
      rw [ih hrest']

theorem lastPosition_concat (h : last.position = some last.rank) :
    lastPosition (front ++ [last]) = some last.rank := by
  simp [lastPosition, h]

theorem queue_after_page
    (hpage : ((backlog rows p u).queue watermark).take limit = front ++ [last]) :
    last.position = some last.rank ∧ last.rank ≤ SortKey.maxPosition ∧
      (((backlog rows p u).queue watermark).drop limit).filter (fun m => last.rank < m.rank) =
        (backlog rows p u).queue (some last.rank) := by
  have hsplit : (backlog rows p u).queue watermark =
      front ++ [last] ++ ((backlog rows p u).queue watermark).drop limit := by
    rw [← hpage, List.take_append_drop]
  have hsorted := pairwise_queue rows p u watermark
  have hlast : last ∈ (backlog rows p u).queue watermark := by
    rw [hsplit]
    simp
  obtain ⟨hposition, hrank, hafter⟩ := mem_queue hlast
  refine ⟨hposition, hrank, ?_⟩
  rw [hsplit] at hsorted
  rw [queue_some fun w hw => UInt64.le_of_lt (hafter w hw), ← filter_rank_append hsorted, ← hsplit]

theorem Tidy.exists_pages (h : Tidy rows (t.partition u)) (hlimit : 0 < limit)
    (hrows : e.store.messageRows t.table = .ok rows) (hfault : e.fault = none)
    (hwatermark : ∀ w ∈ watermark, w ≤ SortKey.maxPosition) :
    ∃ pages, Paged t u limit e watermark pages ∧
      pages.flatten.Sublist ((backlog rows (t.partition u) u).queue watermark) ∧
      (pages.flatten = (backlog rows (t.partition u) u).queue watermark ↔
        SplitsNoPosition limit ((backlog rows (t.partition u) u).queue watermark)) := by
  obtain ⟨ms, hms⟩ : ∃ ms, ms = (backlog rows (t.partition u) u).queue watermark := ⟨_, rfl⟩
  rw [← hms]
  induction hsize : ms.length using Nat.strong_induction_on generalizing ms e watermark with
  | _ size ih =>
    have hsorted := pairwise_queue rows (t.partition u) u watermark
    obtain ⟨stats, hread⟩ := h.run_fetchAfter hrows hfault hwatermark limit
    rw [← hms] at hread hsorted
    rcases List.eq_nil_or_concat (ms.take limit) with hnil | ⟨front, last, hpage⟩
    · have hempty : ms = [] := by
        rcases List.take_eq_nil_iff.1 hnil with hzero | hempty
        · omega
        · exact hempty
      subst hempty
      refine ⟨[], .stop hread List.take_nil, List.Sublist.refl _, ?_⟩
      simp [splitsNoPosition_of_length_le]
    · rw [List.concat_eq_append] at hpage
      rw [hms] at hpage
      obtain ⟨hposition, hrank, hnext⟩ := queue_after_page hpage
      rw [← hms] at hpage hnext
      have hsplit : front ++ [last] ++ ms.drop limit = ms := by
        rw [← hpage, List.take_append_drop]
      have hshorter : ((ms.drop limit).filter fun m => last.rank < m.rank).length < size := by
        have hle := List.length_filter_le (fun m => decide (last.rank < m.rank)) (ms.drop limit)
        have hlength := congrArg List.length hsplit
        simp only [List.length_append, List.length_singleton] at hlength
        omega
      obtain ⟨pages, hpages, hsub, hiff⟩ :=
        ih (e := { e with stats }) _ hshorter hrows hfault (by simpa using hrank) _ hnext rfl
      rw [hpage, lastPosition_concat hposition] at hread
      refine ⟨(front ++ [last]) :: pages, .next hread (by simp) hpages, ?_,
        page_append_eq_iff hpage hsorted hsub hiff⟩
      have hbehind := hsub.trans List.filter_sublist
      rw [← hsplit]
      exact (List.Sublist.refl (front ++ [last])).append hbehind

/-- Every row of the partition but the metadata row is one that is written for a notification. -/
def IsWritten (rows : MessageRows) (p : String) : Prop :=
  ∀ k content, rows.get? k = some content → k.partition = p → k ≠ RowKey.metadata p →
    ∃ t now n key, rowFor t now p n = .ok (key, ⟨k, content⟩)

theorem IsWritten.tidy (h : IsWritten rows p) : Tidy rows p := by
  intro k content hget hp hk
  obtain ⟨t, now, n, key, hrow⟩ := h k content hget hp hk
  cases hplace : n.place? now with
  | none =>
    obtain ⟨error, herror⟩ := rowFor_of_no_place (t := t) (p := p) hplace
    rw [herror] at hrow
    cases hrow
  | some place =>
    obtain ⟨written, hwritten, htimestamp, hupdateId, -⟩ := rowFor_of_place (t := t) (p := p) hplace
    rw [hwritten] at hrow
    cases hrow
    exact ⟨place, rfl, htimestamp, hupdateId⟩

/-- The pages of a written partition come to an end, and together they are what one unlimited read
gives if and only if no page ends between two notifications of one position. -/
theorem pages_lose_nothing_iff (hrows : e.store.messageRows t.table = .ok rows)
    (hwritten : IsWritten rows (t.partition u)) (hlimit : 1 ≤ limit)
    (hwatermark : ∀ w ∈ watermark, w ≤ SortKey.maxPosition) :
    ∃ full, IsFullRead t u watermark e full ∧
      (∃ pages, Paged t u limit { e with fault := none } watermark pages) ∧
      ∀ pages, Paged t u limit { e with fault := none } watermark pages →
        (pages.flatten = full ↔ SplitsNoPosition limit full) := by
  have htidy := hwritten.tidy
  obtain ⟨pages, hpages, -, hiff⟩ :=
    htidy.exists_pages (e := { e with fault := none }) hlimit hrows rfl hwatermark
  refine ⟨_, htidy.isFullRead hrows hwatermark, ⟨pages, hpages⟩, fun pages' hpages' => ?_⟩
  rw [hpages'.unique hpages]
  exact hiff

def januaryRow (n : Notification) : MessageRow where
  key := ⟨januaryTable.partition n.subscriber, SortKey.encode (.timestamped n.rank n.channel)⟩
  content := { ttl := some n.ttl, timestamp := some n.timestamp, updateId := some n.version }

def januaryRows : MessageRows :=
  insertAll .empty [januaryRow queuedNotification,
    januaryRow { queuedNotification with position := some 101 }]

def januaryRowsEngine : Engine where
  store := ⟨SortedMap.empty.insert januaryTable.table (.messages januaryRows)⟩

theorem messageRows_januaryRowsEngine :
    januaryRowsEngine.store.messageRows januaryTable.table = .ok januaryRows := by
  decide +kernel

theorem isWritten_januaryRows : IsWritten januaryRows (januaryTable.partition ⟨⟨1⟩⟩) := by
  intro k content hget _ _
  unfold januaryRows insertAll at hget
  simp only [List.foldl_cons, List.foldl_nil, SortedMap.get?_insert] at hget
  split at hget
  next hk =>
    cases hget
    subst hk
    exact ⟨januaryTable, ⟨5⟩, { queuedNotification with position := some 101 }, _, rfl⟩
  next =>
    split at hget
    next hk =>
      cases hget
      subst hk
      exact ⟨januaryTable, ⟨5⟩, queuedNotification, _, rfl⟩
    next => cases hget

theorem pages_lose_nothing_iff_january :
    IsWritten januaryRows (januaryTable.partition ⟨⟨1⟩⟩) ∧
    ∃ full, IsFullRead januaryTable ⟨⟨1⟩⟩ (some 7) januaryRowsEngine full ∧
      ∃ pages, Paged januaryTable ⟨⟨1⟩⟩ 1 januaryRowsEngine (some 7) pages ∧
        (pages.flatten = full ↔ SplitsNoPosition 1 full) := by
  have hrows := messageRows_januaryRowsEngine
  have hwritten := isWritten_januaryRows
  have hlimit : 1 ≤ 1 := Nat.le_refl 1
  have hwatermark : ∀ w ∈ some (7 : UInt64), w ≤ SortKey.maxPosition := by
    rintro w ⟨⟩
    decide
  obtain ⟨full, hfull, ⟨pages, hpages⟩, hiff⟩ :=
    pages_lose_nothing_iff hrows hwritten hlimit hwatermark
  exact ⟨hwritten, full, hfull, pages, hpages, hiff pages hpages⟩

/-- An engine after one store of two notifications of different channels at one position. -/
def twinEngine : Engine :=
  (Request.serve januaryTable
    ⟨⟨5⟩, none, .storeAll ⟨⟨1⟩⟩
      [queuedNotification, { queuedNotification with channel := ⟨⟨3⟩⟩, messageId := "n" }]⟩
    januaryEngine).2

/-- The page after the first of the two is empty. -/
theorem page_between_twins_loses :
    Paged januaryTable ⟨⟨1⟩⟩ 1 twinEngine none
      [[{ queuedNotification with source := .stored, updateId := some "m" }]] ∧
    (Action.run (fetchAfter januaryTable ⟨⟨1⟩⟩ none 0xFFFFFFFFFFFFFFFF) twinEngine).1 =
      .ok ⟨some 100,
        [{ queuedNotification with source := .stored, updateId := some "m" },
          { queuedNotification with
            channel := ⟨⟨3⟩⟩, source := .stored, messageId := "n", updateId := some "n" }]⟩ := by
  refine ⟨?_, by decide +kernel⟩
  let page : Page :=
    ⟨some 100, [{ queuedNotification with source := .stored, updateId := some "m" }]⟩
  have hfirst : Action.run (fetchAfter januaryTable ⟨⟨1⟩⟩ none 1) twinEngine =
      (.ok page, (Action.run (fetchAfter januaryTable ⟨⟨1⟩⟩ none 1) twinEngine).2) :=
    Prod.ext (by decide +kernel) rfl
  have hsecond (e : Engine) (he : e = (Action.run (fetchAfter januaryTable ⟨⟨1⟩⟩ none 1)
      twinEngine).2) : (Action.run (fetchAfter januaryTable ⟨⟨1⟩⟩ (some 100) 1) e).1 =
        .ok ⟨none, []⟩ := by
    subst he
    decide +kernel
  exact .next hfirst (by decide) (.stop (Prod.ext (hsecond _ rfl) rfl) rfl)

end Pages

end Mailbox

end PushQueue
