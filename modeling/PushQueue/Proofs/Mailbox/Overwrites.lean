import PushQueue.Proofs.Mailbox.Refinement

/-!
Stores that lose nothing. A queued notification takes over the row of its position and channel, so a
call keeps what is stored, and all that it brings, exactly if no two of these notifications meet on
one position and channel; nothing else about them matters.
-/

namespace PushQueue

namespace Notification

/-- The position and the channel that are its key in the queue. -/
def slot (now : Instant) (n : Notification) : UInt64 × ChannelId :=
  (n.position.getD now.millis, n.channel)

end Notification

namespace Place

def slot (place : Place) : UInt64 × ChannelId := (place.key.position.getD 0, place.key.channel)

theorem slot_injective {a b : Place} (ha : a.isQueued = true) (hb : b.isQueued = true)
    (h : a.slot = b.slot) : a = b := by
  cases a with
  | topic => cases ha
  | queued position channel inRange =>
    cases b with
    | topic => cases hb
    | queued position' channel' inRange' =>
      obtain ⟨rfl, rfl⟩ := Prod.mk.inj h
      rfl

end Place

theorem Notification.place?_of_topic_none {now : Instant} {n : Notification} {place : Place}
    (htopic : n.topic = none) (h : n.place? now = some place) :
    place.isQueued = true ∧ place.slot = n.slot now := by
  unfold Notification.place? at h
  rw [htopic] at h
  simp only at h
  split at h
  · cases h
  · have hkey := Place.ofKey?_eq_some_iff.1 h
    refine ⟨?_, by rw [Place.slot, hkey]; rfl⟩
    cases place with
    | topic => cases hkey
    | queued => rfl

namespace Backlog

variable {b : Backlog} {u : SubscriberId} {now : Instant} {ns : List Notification}
  {place : Place} {m n : Notification}

def waiting (b : Backlog) : SortedMap Place Notification :=
  b.messages.filter fun place _ => place.isAfter none

theorem queue_none (b : Backlog) : b.queue none = b.waiting.entries.map Prod.snd := rfl

def deposits (u : SubscriberId) (now : Instant) (ns : List Notification) :
    List (Place × Notification) :=
  ns.filterMap fun n => (n.place? now).map fun place => (place, n.storedAt u place)

theorem messages_foldl_put (b : Backlog) (ns : List Notification) :
    (ns.foldl (fun b n => b.put u now n) b).messages =
      b.messages.insertEntries (deposits u now ns) := by
  induction ns generalizing b with
  | nil => rfl
  | cons n ns ih =>
    rw [List.foldl_cons, ih]
    unfold put deposits
    rw [List.filterMap_cons]
    cases n.place? now <;> rfl

def ForQueue (now : Instant) (ns : List Notification) : Prop :=
  ∀ n ∈ ns, n.topic = none ∧ ∃ place, n.place? now = some place

theorem mem_deposits (hplace : n.place? now = some place) (hn : n ∈ ns) :
    (place, n.storedAt u place) ∈ deposits u now ns := by
  apply List.mem_filterMap.2
  exact ⟨n, hn, by rw [hplace]; rfl⟩

theorem isQueued_of_mem_deposits (hns : ForQueue now ns) {entry : Place × Notification}
    (h : entry ∈ deposits u now ns) :
    entry.1.isQueued = true ∧ ∃ n ∈ ns, entry.1.slot = n.slot now := by
  obtain ⟨n, hn, hentry⟩ := List.mem_filterMap.1 h
  obtain ⟨place, hplace, rfl⟩ := Option.map_eq_some_iff.1 hentry
  obtain ⟨hqueued, hslot⟩ := Notification.place?_of_topic_none (hns n hn).1 hplace
  exact ⟨hqueued, n, hn, hslot⟩

theorem map_slot_deposits (hns : ForQueue now ns) :
    ((deposits u now ns).map Prod.fst).map Place.slot = ns.map (Notification.slot now) := by
  induction ns with
  | nil => rfl
  | cons n ns ih =>
    obtain ⟨⟨htopic, place, hplace⟩, hrest⟩ := List.forall_mem_cons.1 hns
    have hslot := (Notification.place?_of_topic_none htopic hplace).2
    have hcons : deposits u now (n :: ns) = (place, n.storedAt u place) :: deposits u now ns := by
      unfold deposits
      rw [List.filterMap_cons, hplace]
      rfl
    rw [hcons, List.map_cons, List.map_cons, List.map_cons, ih hrest, hslot]

theorem length_deposits (hns : ForQueue now ns) : (deposits u now ns).length = ns.length := by
  have h := congrArg List.length (map_slot_deposits (u := u) hns)
  simpa using h

theorem nodup_deposits_iff (hns : ForQueue now ns) :
    ((deposits u now ns).map Prod.fst).Nodup ↔ (ns.map (Notification.slot now)).Nodup := by
  rw [← map_slot_deposits (u := u) hns]
  constructor
  · apply List.Nodup.map_on
    intro a ha c hc heq
    obtain ⟨entry, hentry, rfl⟩ := List.mem_map.1 ha
    obtain ⟨entry', hentry', rfl⟩ := List.mem_map.1 hc
    exact Place.slot_injective (isQueued_of_mem_deposits hns hentry).1
      (isQueued_of_mem_deposits hns hentry').1 heq
  · exact List.Nodup.of_map _

theorem waiting_foldl_put (b : Backlog) (hns : ForQueue now ns) :
    (ns.foldl (fun b n => b.put u now n) b).waiting =
      b.waiting.insertEntries (deposits u now ns) := by
  unfold waiting
  rw [messages_foldl_put]
  apply SortedMap.filter_insertEntries
  intro entry hentry _
  have hqueued := (isQueued_of_mem_deposits hns hentry).1
  cases hplace : entry.1 with
  | topic => simp [hplace, Place.isQueued] at hqueued
  | queued => rfl

def Keyed (b : Backlog) : Prop :=
  ∀ entry ∈ b.messages.entries,
    entry.2.position = entry.1.key.position ∧ entry.2.channel = entry.1.key.channel

theorem Keyed.slot_eq (now : Instant) (h : b.Keyed) (hentry : (place, m) ∈ b.waiting.entries) :
    place.isQueued = true ∧ m.slot now = place.slot := by
  obtain ⟨hmem, hafter⟩ := List.mem_filter.1 hentry
  obtain ⟨hposition, hchannel⟩ := h _ hmem
  cases place with
  | topic => cases hafter
  | queued =>
    refine ⟨rfl, ?_⟩
    unfold Notification.slot Place.slot
    rw [hposition, hchannel]
    rfl

theorem Keyed.fresh_iff (h : b.Keyed) (hns : ForQueue now ns) :
    (∀ entry ∈ deposits u now ns, b.waiting.get? entry.1 = none) ↔
      ∀ n ∈ ns, ∀ m ∈ b.queue none, n.slot now ≠ m.slot now := by
  constructor
  · intro hfresh n hn m hm heq
    obtain ⟨⟨place, m⟩, hentry, rfl⟩ := List.mem_map.1 hm
    obtain ⟨place', hplace'⟩ := (hns n hn).2
    obtain ⟨hqueued', hslot'⟩ := Notification.place?_of_topic_none (hns n hn).1 hplace'
    obtain ⟨hqueued, hslot⟩ := h.slot_eq now hentry
    have hsame : place' = place :=
      Place.slot_injective hqueued' hqueued (hslot'.trans (heq.trans hslot))
    have hnone := hfresh _ (mem_deposits (u := u) hplace' hn)
    rw [hsame, (SortedMap.mem_entries_iff _ _ _).1 hentry] at hnone
    cases hnone
  · intro hne entry hentry
    obtain ⟨-, n, hn, hslot⟩ := isQueued_of_mem_deposits hns hentry
    cases hget : b.waiting.get? entry.1 with
    | none => rfl
    | some m =>
      have hmem := (SortedMap.mem_entries_iff _ _ _).2 hget
      have hm : m ∈ b.queue none := List.mem_map.2 ⟨_, hmem, rfl⟩
      exact absurd (hslot.symm.trans (h.slot_eq now hmem).2.symm) (hne n hn m hm)

theorem Keyed.lossless_iff (h : b.Keyed) (hns : ForQueue now ns) :
    ((∀ m ∈ b.queue none, m ∈ (ns.foldl (fun b n => b.put u now n) b).queue none) ∧
      (∀ n ∈ ns, ∃ place, n.place? now = some place ∧
        n.storedAt u place ∈ (ns.foldl (fun b n => b.put u now n) b).queue none) ∧
      ((ns.foldl (fun b n => b.put u now n) b).queue none).length =
        (b.queue none).length + ns.length) ↔
    (ns.map (Notification.slot now)).Nodup ∧
      ∀ n ∈ ns, ∀ m ∈ b.queue none, n.slot now ≠ m.slot now := by
  have hsize : ((ns.foldl (fun b n => b.put u now n) b).queue none).length =
      (b.queue none).length + ns.length ↔
        ((deposits u now ns).map Prod.fst).Nodup ∧
          ∀ entry ∈ deposits u now ns, b.waiting.get? entry.1 = none := by
    rw [← SortedMap.size_insertEntries_eq_iff, ← waiting_foldl_put b hns, length_deposits hns,
      queue_none, queue_none, List.length_map, List.length_map]
    rfl
  rw [← nodup_deposits_iff (u := u) hns, ← h.fresh_iff (u := u) hns, hsize]
  constructor
  · exact fun hall => hall.2.2
  · rintro ⟨hnodup, hfresh⟩
    have hkept : ∀ entry ∈ b.waiting.entries,
        entry ∈ (b.waiting.insertEntries (deposits u now ns)).entries := by
      rintro ⟨place, m⟩ hentry
      have hget := (SortedMap.mem_entries_iff _ _ _).1 hentry
      have hnot : place ∉ (deposits u now ns).map Prod.fst := by
        intro hmem
        obtain ⟨entry, hdeposit, rfl⟩ := List.mem_map.1 hmem
        rw [hfresh entry hdeposit] at hget
        cases hget
      rw [SortedMap.mem_entries_iff, SortedMap.get?_insertEntries_of_notMem hnot, hget]
    refine ⟨?_, ?_, hnodup, hfresh⟩
    · intro m hm
      obtain ⟨entry, hentry, rfl⟩ := List.mem_map.1 hm
      rw [queue_none, waiting_foldl_put b hns]
      exact List.mem_map_of_mem (hkept entry hentry)
    · intro n hn
      obtain ⟨place, hplace⟩ := (hns n hn).2
      refine ⟨place, hplace, ?_⟩
      rw [queue_none, waiting_foldl_put b hns]
      have hget := SortedMap.get?_insertEntries_of_mem (m := b.waiting) hnodup
        (mem_deposits (u := u) hplace hn)
      exact List.mem_map.2 ⟨_, (SortedMap.mem_entries_iff _ _ _).2 hget, rfl⟩

end Backlog

namespace Mailbox

open Backlog

variable {t : TableHandle} {u : SubscriberId} {e : Engine} {r : Request} {ns : List Notification}

/-- The call stores these notifications for a subscriber. -/
inductive Call.Stores (u : SubscriberId) : Call → List Notification → Prop
  | one {n : Notification} (h : n.subscriber = u) : Stores u (.store n) [n]
  | many (ns : List Notification) : Stores u (.storeAll u ns) ns

theorem Request.isAdmitted_of_accepted (h : (r.serve t e).1 = .ok ()) : r.isAdmitted = true := by
  cases hadmitted : r.isAdmitted with
  | true => rfl
  | false =>
    obtain ⟨error, e', hserve, -⟩ := Request.serve_refused (t := t) e hadmitted
    rw [hserve] at h
    cases h

theorem Call.Stores.forQueue (h : r.call.Stores u ns) (hadmitted : r.isAdmitted = true)
    (htopic : ∀ n ∈ ns, n.topic = none) : ForQueue r.now ns := by
  obtain ⟨-, hwf⟩ := Bool.and_eq_true_iff.1 hadmitted
  obtain ⟨now, fault, call⟩ := r
  intro n hn
  refine ⟨htopic n hn, ?_⟩
  cases h with
  | one hsubscriber =>
    obtain rfl := List.mem_singleton.1 hn
    exact Option.isSome_iff_exists.1 hwf
  | many => exact Option.isSome_iff_exists.1 (List.all_eq_true.1 hwf n hn)

theorem Call.Stores.subscriber_eq {call : Call} (h : call.Stores u ns) : call.subscriber = u := by
  cases h with
  | one hsubscriber => exact hsubscriber
  | many => rfl

theorem Call.Stores.step_eq (h : r.call.Stores u ns) (t : TableHandle) (b : Backlog) :
    b.step t u r = ns.foldl (fun b n => b.put u r.now n) b := by
  unfold Backlog.step
  rw [if_pos (congrArg t.partition h.subscriber_eq)]
  obtain ⟨now, fault, call⟩ := r
  cases h <;> rfl

/-- An accepted call that stores queued notifications keeps what was read before and adds what it
brings if and only if no two of these notifications have one position and channel. -/
theorem store_loses_nothing_iff (hempty : e.store.messageRows t.table = .ok .empty)
    (requests : List Request) (haccepted : (r.serve t (serveAll t e requests)).1 = .ok ())
    (hstores : r.call.Stores u ns) (htopic : ∀ n ∈ ns, n.topic = none) :
    ∃ before after,
      IsFullRead t u none (serveAll t e requests) before ∧
      IsFullRead t u none (r.serve t (serveAll t e requests)).2 after ∧
      (((∀ m ∈ before, m ∈ after) ∧
        (∀ n ∈ ns, ∃ place, n.place? r.now = some place ∧ n.storedAt u place ∈ after) ∧
        after.length = before.length + ns.length) ↔
      (ns.map (Notification.slot r.now)).Nodup ∧
        ∀ n ∈ ns, ∀ m ∈ before, n.slot r.now ≠ m.slot r.now) := by
  have hadmitted := Request.isAdmitted_of_accepted haccepted
  obtain ⟨rows, hrows, htidy, -⟩ := exists_rows_of_empty hempty requests u
  obtain ⟨e', rows', hserve, hrows', hfollows⟩ := Request.serve_admitted hrows hadmitted
  obtain ⟨htidy', hbacklog⟩ := hfollows u htidy
  rw [hstores.step_eq] at hbacklog
  refine ⟨_, (backlog rows' (t.partition u) u).queue none, htidy.isFullRead hrows (by simp), ?_, ?_⟩
  · rw [hserve]
    exact htidy'.isFullRead hrows' (by simp)
  · rw [hbacklog]
    have hkeyed : (backlog rows (t.partition u) u).Keyed := fun _ => key_of_mem_backlog
    exact hkeyed.lossless_iff (hstores.forQueue hadmitted htopic)

/-- Two notifications of one channel, the second without a position. -/
def januaryPair : List Notification :=
  [queuedNotification, { queuedNotification with position := none, messageId := "n" }]

/-- A millisecond apart, both are kept. -/
theorem store_loses_nothing_iff_january :
    (Request.serve januaryTable ⟨⟨101⟩, none, .storeAll ⟨⟨1⟩⟩ januaryPair⟩ januaryEngine).1 =
      .ok () ∧
    (∀ n ∈ januaryPair, n.topic = none) ∧
    ∃ after,
      IsFullRead januaryTable ⟨⟨1⟩⟩ none
        (Request.serve januaryTable ⟨⟨101⟩, none, .storeAll ⟨⟨1⟩⟩ januaryPair⟩
          januaryEngine).2 after ∧
      (∀ n ∈ januaryPair, ∃ place, n.place? ⟨101⟩ = some place ∧
        n.storedAt ⟨⟨1⟩⟩ place ∈ after) ∧
      after.length = 2 := by
  have haccepted : (Request.serve januaryTable ⟨⟨101⟩, none, .storeAll ⟨⟨1⟩⟩ januaryPair⟩
      januaryEngine).1 = .ok () := by decide +kernel
  have htopic : ∀ n ∈ januaryPair, n.topic = none := by decide
  have hempty : januaryEngine.store.messageRows januaryTable.table = .ok .empty := by decide
  obtain ⟨before, after, hbefore, hafter, hiff⟩ :=
    store_loses_nothing_iff hempty [] haccepted (.many januaryPair) htopic
  have hnone : before = [] := hbefore.unique ((tidy_empty _).isFullRead hempty (by simp))
  subst hnone
  obtain ⟨-, hbrought, hlength⟩ := hiff.2 ⟨by decide, by simp⟩
  exact ⟨haccepted, htopic, after, hafter, hbrought, hlength⟩

/-- In one millisecond the second takes over the row of the first, whatever their versions. -/
theorem store_in_one_millisecond_overwrites :
    (Request.serve januaryTable ⟨⟨100⟩, none, .storeAll ⟨⟨1⟩⟩ januaryPair⟩ januaryEngine).1 =
      .ok () ∧
    (Action.run (fetchAfter januaryTable ⟨⟨1⟩⟩ none 0xFFFFFFFFFFFFFFFF)
      (Request.serve januaryTable ⟨⟨100⟩, none, .storeAll ⟨⟨1⟩⟩ januaryPair⟩
        januaryEngine).2).1 =
      .ok ⟨some 100, [{ queuedNotification with
        source := .stored, messageId := "n", updateId := some "n" }]⟩ := by
  decide +kernel

end Mailbox

end PushQueue
