import PushQueue.Proofs.Mailbox.Refinement
import PushQueue.Proofs.Mailbox.Visits

/-!
The metadata row of a subscriber as a ledger of its calls. Clients that share a table change the row
in place, so that it comes to what the accepted calls of the subscriber come to, in whatever order
all clients make theirs.
-/

namespace PushQueue

@[ext] structure Ledger where
  /-- There is an entry. -/
  known : Bool := false
  channels : SortedSet ChannelId := .empty
  readPosition : Option UInt64 := none

namespace Ledger

/-- Enter an accepted call, if it is about the subscriber. -/
def enter (u : SubscriberId) (l : Ledger) (call : Mailbox.Call) : Ledger :=
  if call.subscriber = u then
    match call with
    | .register _ channel _ => { l with known := true, channels := l.channels.insert channel () }
    | .unregister _ channel => { l with known := true, channels := l.channels.erase channel }
    | .save _ channels => { known := true, channels, readPosition := none }
    | .markRead _ position => { l with known := true, readPosition := some position }
    | .store _ | .storeAll .. | .delete _ => l
  else l

variable {t : TableHandle} {u : SubscriberId} {now : Instant} {rows rows' : MessageRows}
  {call a b : Mailbox.Call} {l : Ledger} {row : Option RowContent} {p : String}

section Agreement

open Mailbox

structure Agrees (l : Ledger) (row : Option RowContent) : Prop where
  known : row.isSome = l.known
  channels : keptChannels row = Channels.texts l.channels
  readPosition : row.bind RowContent.readPosition = l.readPosition

theorem agrees_empty : Agrees {} none := ⟨rfl, rfl, rfl⟩

/-- A call changes the row as it is entered: what it does not own is left as it was. -/
theorem Agrees.onProfile (h : l.Agrees row) (hname : Store.offersShadowed t.table = false)
    (hcall : call.subscriber = u) : (l.enter u call).Agrees (call.onProfile t now row) := by
  have hposition : (row.getD {}).readPosition = l.readPosition := by
    rw [← h.readPosition]
    cases row <;> rfl
  have hkept : (row.getD {}).channels.getD .empty = Channels.texts l.channels := by
    rw [← h.channels]
    cases row <;> rfl
  unfold enter
  rw [if_pos hcall]
  cases call with
  | register subscriber channel ttl =>
    have hadded : SortedSet.union (keptChannels row) (.singleton channel.text) =
        Channels.texts (l.channels.insert channel ()) := by
      rw [Channels.texts_insert, ← h.channels, SortedSet.union_singleton]
    rw [Call.onProfile, upserted_eq hname]
    exact ⟨rfl, hadded, hposition⟩
  | unregister subscriber channel =>
    have hremoved : SortedSet.diff (keptChannels row) (.singleton channel.text) =
        Channels.texts (l.channels.erase channel) := by
      rw [Channels.texts_erase, ← h.channels, SortedSet.diff_singleton]
    rw [Call.onProfile, upserted_eq hname]
    exact ⟨rfl, hremoved, hposition⟩
  | save subscriber channels => exact ⟨rfl, rfl, rfl⟩
  | markRead subscriber position =>
    rw [Call.onProfile, upserted_eq hname]
    exact ⟨rfl, hkept, rfl⟩
  | store | storeAll | delete => exact h

theorem enter_of_ne (h : call.subscriber ≠ u) (l : Ledger) : l.enter u call = l := by
  unfold enter
  rw [if_neg h]

theorem Agrees.enter (h : l.Agrees (rows.get? (RowKey.metadata (t.partition u))))
    (hmarks : Marks t now call rows rows') (hname : Store.offersShadowed t.table = false)
    (hu : ∀ v, t.partition v = t.partition u → v = u) :
    (l.enter u call).Agrees (rows'.get? (RowKey.metadata (t.partition u))) := by
  rw [hmarks]
  by_cases hcall : call.subscriber = u
  · rw [if_pos (congrArg t.partition hcall)]
    exact h.onProfile hname hcall
  · rw [if_neg (mt (hu _) hcall), enter_of_ne hcall]
    exact h

theorem Agrees.profile (h : l.Agrees (rows.get? (RowKey.metadata p))) :
    Channels.profile rows p = .ok (l.known, l.channels) := by
  have hread := Channels.readAll_texts l.channels
  rw [← h.channels] at hread
  have hknown := h.known
  unfold Channels.profile
  cases hrow : rows.get? (RowKey.metadata p) with
  | none =>
    rw [hrow] at hread hknown
    rw [← hknown, ← Except.ok.inj hread]
    rfl
  | some content =>
    rw [hrow] at hread hknown
    have hread : Channels.readAll (content.channels.getD .empty) = .ok l.channels := hread
    rw [← hknown]
    simp only [hread]
    rfl

end Agreement

section Entries

open Mailbox

def isEntry (u : SubscriberId) (call : Call) : Bool :=
  call.subscriber = u &&
    match call with
    | .register .. | .unregister .. | .save .. | .markRead .. => true
    | .store _ | .storeAll .. | .delete _ => false

theorem known_foldl_enter (calls : List Call) (l : Ledger) :
    (calls.foldl (enter u) l).known = (l.known || calls.any (isEntry u)) := by
  induction calls generalizing l with
  | nil => simp
  | cons call rest ih =>
    have hstep : (l.enter u call).known = (l.known || isEntry u call) := by
      by_cases hcall : call.subscriber = u
      · cases call <;> simp [enter, isEntry, hcall]
      · simp [enter_of_ne hcall, isEntry, hcall]
    rw [List.foldl_cons, ih, hstep, List.any_cons, Bool.or_assoc]

def channel? (u : SubscriberId) : Call → Option ChannelId
  | .register subscriber channel _ | .unregister subscriber channel =>
    if subscriber = u then some channel else none
  | .save .. | .markRead .. | .store _ | .storeAll .. | .delete _ => none

theorem enter_of_channel? {channel : ChannelId} (h : channel? u call = some channel) :
    ∃ present : Option Unit, ∀ l : Ledger,
      (l.enter u call).known = true ∧ (l.enter u call).readPosition = l.readPosition ∧
      ∀ k, (l.enter u call).channels.get? k =
        if channel = k then present else l.channels.get? k := by
  cases call with
  | register subscriber added ttl =>
    obtain ⟨hcall, ⟨⟩⟩ := Option.ite_none_right_eq_some.1 h
    refine ⟨some (), fun l => ?_⟩
    simp [enter, Call.subscriber, hcall, SortedMap.get?_insert]
  | unregister subscriber removed =>
    obtain ⟨hcall, ⟨⟩⟩ := Option.ite_none_right_eq_some.1 h
    refine ⟨none, fun l => ?_⟩
    simp [enter, Call.subscriber, hcall, SortedMap.get?_erase]
  | save | markRead | store | storeAll | delete => cases h

theorem enter_comm {c d : ChannelId} (ha : channel? u a = some c) (hb : channel? u b = some d)
    (hne : c ≠ d) (l : Ledger) : (l.enter u a).enter u b = (l.enter u b).enter u a := by
  obtain ⟨presentA, ha⟩ := enter_of_channel? ha
  obtain ⟨presentB, hb⟩ := enter_of_channel? hb
  apply Ledger.ext
  · rw [(ha _).1, (hb _).1]
  · apply SortedMap.ext_get?
    intro k
    rw [(ha _).2.2, (hb _).2.2, (ha _).2.2, (hb _).2.2]
    by_cases hc : c = k
    · have hd : d ≠ k := fun hd => hne (hc.trans hd.symm)
      simp [hc, hd]
    · simp [hc]
  · rw [(ha _).2.1, (hb _).2.1, (ha _).2.1, (hb _).2.1]

end Entries

end Ledger

namespace Mailbox

/-- A request of a client. Clients share the table and the partition keys, and each cuts lifetimes
in its own way. -/
structure Turn where
  maxTtl : UInt64
  request : Request

namespace Turn

def serve (t : TableHandle) (turn : Turn) (e : Engine) : Except StoreError Unit × Engine :=
  turn.request.serve (t.withMaxTtl turn.maxTtl) e

end Turn

def takeTurns (t : TableHandle) (e : Engine) (turns : List Turn) : Engine :=
  e.after (fun e turn => (turn.serve t e).2) turns

def acceptedCalls (t : TableHandle) (e : Engine) (turns : List Turn) : List Call :=
  (e.accepted (Turn.serve t) turns).map fun turn => turn.request.call

/-- What the accepted calls about a subscriber come to. -/
def ledger (t : TableHandle) (u : SubscriberId) (e : Engine) (turns : List Turn) : Ledger :=
  (acceptedCalls t e turns).foldl (Ledger.enter u) {}

section Turns

variable {t : TableHandle} {u : SubscriberId} {rows : MessageRows} {e : Engine} {l : Ledger}

theorem Turn.serve_admitted (turn : Turn) (hrows : e.store.messageRows t.table = .ok rows)
    (h : turn.request.isAdmitted = true) :
    ∃ e' rows', turn.serve t e = (.ok (), e') ∧ e'.store.messageRows t.table = .ok rows' ∧
      Marks (t.withMaxTtl turn.maxTtl) turn.request.now turn.request.call rows rows' ∧
      ∀ u, Tidy rows (t.partition u) → Tidy rows' (t.partition u) := by
  have hrows : e.store.messageRows (t.withMaxTtl turn.maxTtl).table = .ok rows := by
    rwa [TableHandle.table_withMaxTtl]
  obtain ⟨e', rows', hserve, hrows', hfollows⟩ := Request.serve_admitted hrows h
  obtain ⟨rows₁, hrows₁, hmarks⟩ := Call.marks_of_gives ⟨e', hserve, rfl⟩ hrows
  obtain rfl : rows' = rows₁ := Except.ok.inj (hrows'.symm.trans hrows₁)
  rw [TableHandle.table_withMaxTtl] at hrows'
  refine ⟨e', rows', hserve, hrows', hmarks, fun u htidy => ?_⟩
  rw [← t.partition_withMaxTtl turn.maxTtl] at htidy ⊢
  exact (hfollows u htidy).1

theorem Turn.serve_refused (turn : Turn) (t : TableHandle) (e : Engine)
    (h : turn.request.isAdmitted = false) :
    ∃ error e', turn.serve t e = (.error error, e') ∧ e'.store = e.store :=
  Request.serve_refused e h

def admittedCalls (turns : List Turn) : List Call :=
  (turns.filter fun turn => turn.request.isAdmitted).map fun turn => turn.request.call

theorem admittedCalls_append (first second : List Turn) :
    admittedCalls (first ++ second) = admittedCalls first ++ admittedCalls second := by
  rw [admittedCalls, List.filter_append, List.map_append]
  rfl

theorem admittedCalls_cons (turn : Turn) (rest : List Turn) :
    admittedCalls (turn :: rest) =
      if turn.request.isAdmitted then turn.request.call :: admittedCalls rest
      else admittedCalls rest := by
  unfold admittedCalls
  rw [List.filter_cons]
  split <;> rfl

theorem Turn.hasTable_serve (turn : Turn) (htable : HasTable t e) :
    (turn.serve t e).1.isOk = turn.request.isAdmitted ∧ HasTable t (turn.serve t e).2 := by
  obtain ⟨rows, hrows⟩ := htable
  rw [← t.table_withMaxTtl turn.maxTtl] at hrows
  obtain ⟨hanswer, rows', hrows', -⟩ := turn.request.serve_spec hrows
  rw [TableHandle.table_withMaxTtl] at hrows'
  exact ⟨hanswer, rows', hrows'⟩

theorem acceptedCalls_eq (htable : HasTable t e) (turns : List Turn) :
    acceptedCalls t e turns = admittedCalls turns := by
  rw [acceptedCalls, Engine.accepted_eq_filter htable fun turn _ => turn.hasTable_serve]
  rfl

/-- The metadata row after a run agrees with the ledger of its admitted calls; the messages beside
it stay readable, without which no read of topics would give the position of the row. -/
theorem exists_rows_takeTurns (hname : Store.offersShadowed t.table = false)
    (hu : ∀ v, t.partition v = t.partition u → v = u)
    (hrows : e.store.messageRows t.table = .ok rows) (htidy : Tidy rows (t.partition u))
    (hagrees : l.Agrees (rows.get? (RowKey.metadata (t.partition u)))) (turns : List Turn) :
    ∃ rows', (takeTurns t e turns).store.messageRows t.table = .ok rows' ∧
      Tidy rows' (t.partition u) ∧
      ((admittedCalls turns).foldl (Ledger.enter u) l).Agrees
        (rows'.get? (RowKey.metadata (t.partition u))) := by
  rw [admittedCalls, List.foldl_map, List.foldl_filter]
  let Stands (e : Engine) (l : Ledger) : Prop :=
    ∃ rows, e.store.messageRows t.table = .ok rows ∧ Tidy rows (t.partition u) ∧
      l.Agrees (rows.get? (RowKey.metadata (t.partition u)))
  refine Engine.follows (R := Stands) ⟨rows, hrows, htidy, hagrees⟩ fun turn _ e l hstands => ?_
  obtain ⟨rows, hrows, htidy, hagrees⟩ := hstands
  cases h : turn.request.isAdmitted with
  | true =>
    obtain ⟨e', rows', hserve, hrows', hmarks, htidy'⟩ := turn.serve_admitted hrows h
    have hname' : Store.offersShadowed (t.withMaxTtl turn.maxTtl).table = false := by
      rwa [TableHandle.table_withMaxTtl]
    rw [hserve]
    refine ⟨rows', hrows', htidy' u htidy, ?_⟩
    rw [← t.partition_withMaxTtl turn.maxTtl] at hagrees ⊢
    simp only [← t.partition_withMaxTtl turn.maxTtl] at hu
    exact hagrees.enter hmarks hname' hu
  | false =>
    obtain ⟨error, e', hserve, hstore⟩ := turn.serve_refused t e h
    rw [← hstore] at hrows
    rw [hserve]
    exact ⟨rows, hrows, htidy, hagrees⟩

structure Kept (t : TableHandle) (u : SubscriberId) (e : Engine) (turns : List Turn) : Prop where
  /-- The row is there once a call made an entry, and its channels are those of the ledger. -/
  channels : Channels.Reports t u (takeTurns t e turns)
    ((acceptedCalls t e turns).any (Ledger.isEntry u), (ledger t u e turns).channels)
  /-- The next removal of a channel, if it gets through, says whether the channel is there. -/
  removal : ∀ (maxTtl : UInt64) (now : Instant) (fault : Option Fault) (channel : ChannelId),
    let e' : Engine := { takeTurns t e turns with fault }
    let unregister := Channels.unregister (t.withMaxTtl maxTtl) now u channel
    e'.isBlocked = true ∧ unregister.Refuses e' ∨
      ∃ store, unregister.Gives e' ((ledger t u e turns).channels.contains channel) store
  /-- A read of topics comes with the position of the ledger. -/
  readPosition : ∀ limit, 1 ≤ limit → ∃ messages,
    (Action.run (fetch t u limit) { takeTurns t e turns with fault := none }).1 =
      .ok ⟨(ledger t u e turns).readPosition, messages⟩
  /-- Two turns for different channels may be taken in either order. -/
  swap : ∀ first second rest c d, Ledger.channel? u first.request.call = some c →
    Ledger.channel? u second.request.call = some d → c ≠ d → ∀ answer,
      Channels.Reports t u (takeTurns t e (turns ++ first :: second :: rest)) answer ↔
        Channels.Reports t u (takeTurns t e (turns ++ second :: first :: rest)) answer

theorem unregister_cases (hrows : e.store.messageRows t.table = .ok rows) (now : Instant)
    (channel : ChannelId) :
    e.isBlocked = true ∧ (Channels.unregister t now u channel).Refuses e ∨
      ∃ store, (Channels.unregister t now u channel).Gives e
        ((keptChannels (rows.get? (RowKey.metadata (t.partition u)))).contains channel.text)
        store := by
  have hupdate := Store.updateMessages_eq hrows fun rows =>
    let row := rows.get? (RowKey.metadata (t.partition u))
    let write := withChannels t now (.remove (.singleton channel.text)) none row
    (keptChannels row, Store.upsert t.table (RowKey.metadata (t.partition u)) (write {}) write rows)
  rcases Action.call_of_ok hupdate with ⟨hblocked, hrefuses⟩ | hgives
  · exact .inl ⟨hblocked, (hrefuses.bind _).tracked _⟩
  · exact .inr ⟨_, (hgives.bind_pure _).tracked _⟩

theorem foldl_admittedCalls_swap {first second : Turn} {c d : ChannelId}
    (hfirst : Ledger.channel? u first.request.call = some c)
    (hsecond : Ledger.channel? u second.request.call = some d) (hne : c ≠ d)
    (turns rest : List Turn) (l : Ledger) :
    (admittedCalls (turns ++ first :: second :: rest)).foldl (Ledger.enter u) l =
      (admittedCalls (turns ++ second :: first :: rest)).foldl (Ledger.enter u) l := by
  simp only [admittedCalls_append, admittedCalls_cons, List.foldl_append]
  cases first.request.isAdmitted with
  | false => rfl
  | true =>
    cases second.request.isAdmitted with
    | false => rfl
    | true =>
      simp only [↓reduceIte, List.foldl_cons]
      rw [Ledger.enter_comm hfirst hsecond hne]

theorem reports_takeTurns_iff (hname : Store.offersShadowed t.table = false)
    (hu : ∀ v, t.partition v = t.partition u → v = u)
    (hempty : e.store.messageRows t.table = .ok .empty) (turns : List Turn)
    (answer : Bool × SortedSet ChannelId) :
    Channels.Reports t u (takeTurns t e turns) answer ↔
      (((admittedCalls turns).foldl (Ledger.enter u) {}).known,
        ((admittedCalls turns).foldl (Ledger.enter u) {}).channels) = answer := by
  obtain ⟨rows, hrows, -, hagrees⟩ :=
    exists_rows_takeTurns hname hu hempty (tidy_empty _) Ledger.agrees_empty turns
  rw [Channels.reports_iff hrows, hagrees.profile, Except.ok.injEq]

theorem kept_of_ne (hname : t.table ≠ "excluded")
    (hu : ∀ v, t.partition v = t.partition u → v = u)
    (hempty : e.store.messageRows t.table = .ok .empty) (turns : List Turn) :
    Kept t u e turns := by
  have hname : Store.offersShadowed t.table = false := decide_eq_false hname
  have hledger : ledger t u e turns = (admittedCalls turns).foldl (Ledger.enter u) {} := by
    rw [ledger, acceptedCalls_eq ⟨_, hempty⟩]
  obtain ⟨rows, hrows, htidy, hagrees⟩ :=
    exists_rows_takeTurns hname hu hempty (tidy_empty _) Ledger.agrees_empty turns
  rw [← hledger] at hagrees
  constructor
  case channels =>
    rw [reports_takeTurns_iff hname hu hempty, acceptedCalls_eq ⟨_, hempty⟩, hledger,
      Ledger.known_foldl_enter]
    rfl
  case removal =>
    intro maxTtl now fault channel e' unregister
    have hrows' : e'.store.messageRows (t.withMaxTtl maxTtl).table = .ok rows := by
      rwa [TableHandle.table_withMaxTtl]
    have hcases := unregister_cases (u := u) hrows' now channel
    rwa [TableHandle.partition_withMaxTtl, hagrees.channels, Channels.contains_texts] at hcases
  case readPosition =>
    intro limit hlimit
    obtain ⟨stats, hfetch⟩ := htidy.run_fetch
      (e := { takeTurns t e turns with fault := none }) hrows rfl limit
    have hposition : (backlog rows (t.partition u) u).readPosition =
        (ledger t u e turns).readPosition := hagrees.readPosition
    rw [hposition, if_neg (Nat.ne_of_gt hlimit)] at hfetch
    exact ⟨_, congrArg Prod.fst hfetch⟩
  case swap =>
    intro first second rest c d hfirst hsecond hne answer
    rw [reports_takeTurns_iff hname hu hempty, reports_takeTurns_iff hname hu hempty,
      foldl_admittedCalls_swap hfirst hsecond hne]

end Turns

section Tables

def firstChannel : ChannelId := ⟨⟨2⟩⟩

def secondChannel : ChannelId := ⟨⟨3⟩⟩

def addition (u : SubscriberId) (channel : ChannelId) : Turn :=
  ⟨maxRetention, ⟨⟨5⟩, none, .register u channel none⟩⟩

def additions (u : SubscriberId) : List Turn :=
  [addition u firstChannel, addition u secondChannel]

def emptyEngine (t : TableHandle) : Engine where
  store := ⟨SortedMap.empty.insert t.table (.messages .empty)⟩

theorem messageRows_emptyEngine (t : TableHandle) :
    (emptyEngine t).store.messageRows t.table = .ok .empty :=
  Store.messageRows_setTable t.valid_table ⟨.empty⟩ .empty

theorem reports_additions {t : TableHandle} (hname : t.table = "excluded") (u : SubscriberId) :
    Channels.Reports t u (takeTurns t (emptyEngine t) (additions u))
      (true, SortedSet.singleton firstChannel) := by
  obtain ⟨e₁, rows₁, hserve₁, hrows₁, hmarks₁, -⟩ :=
    (addition u firstChannel).serve_admitted (messageRows_emptyEngine t) rfl
  obtain ⟨e₂, rows₂, hserve₂, hrows₂, hmarks₂, -⟩ :=
    (addition u secondChannel).serve_admitted hrows₁ rfl
  have hfirst : rows₁.get? (RowKey.metadata (t.partition u)) =
      (Call.register u firstChannel none).onProfile (t.withMaxTtl maxRetention) ⟨5⟩ none :=
    (hmarks₁ (t.partition u)).trans (if_pos (t.partition_withMaxTtl _ u))
  have hsecond : rows₂.get? (RowKey.metadata (t.partition u)) =
      (Call.register u secondChannel none).onProfile (t.withMaxTtl maxRetention) ⟨5⟩
        (rows₁.get? (RowKey.metadata (t.partition u))) :=
    (hmarks₂ (t.partition u)).trans (if_pos (t.partition_withMaxTtl _ u))
  have hshadowed : Store.offersShadowed (t.withMaxTtl maxRetention).table = true := by
    rw [TableHandle.table_withMaxTtl, hname]
    rfl
  have hagrees : ({ known := true, channels := .singleton firstChannel } : Ledger).Agrees
      (rows₂.get? (RowKey.metadata (t.partition u))) := by
    rw [hsecond, hfirst]
    simp only [Call.onProfile, upserted, hshadowed, ↓reduceIte]
    exact ⟨rfl, rfl, rfl⟩
  have hruns : takeTurns t (emptyEngine t) (additions u) = e₂ := by
    simp only [takeTurns, Engine.after, additions, List.foldl_cons, List.foldl_nil, hserve₁, hserve₂]
  rw [hruns, Channels.reports_iff hrows₂, hagrees.profile]

theorem channels_additions (t : TableHandle) (u : SubscriberId) :
    (ledger t u (emptyEngine t) (additions u)).channels =
      (SortedSet.singleton firstChannel).insert secondChannel () := by
  have haccepted : acceptedCalls t (emptyEngine t) (additions u) =
      [.register u firstChannel none, .register u secondChannel none] :=
    acceptedCalls_eq ⟨_, messageRows_emptyEngine t⟩ (additions u)
  simp only [ledger, haccepted, List.foldl_cons, List.foldl_nil, Ledger.enter, Call.subscriber,
    ↓reduceIte]
  rfl

/-- Whatever clients call in whatever order on a table that was empty, what is said about a
subscriber is what its accepted calls come to; but not where the name of the table shadows the rows
that are offered. -/
theorem every_update_kept_iff (t : TableHandle) (u : SubscriberId)
    (hu : ∀ v, t.partition v = t.partition u → v = u) :
    (∀ e turns, e.store.messageRows t.table = .ok .empty → Kept t u e turns) ↔
      t.table ≠ "excluded" := by
  constructor
  · intro hkept hname
    have hall := (hkept _ (additions u) (messageRows_emptyEngine t)).channels
    rw [Channels.Reports, reports_additions hname u, channels_additions] at hall
    have hlost : SortedSet.singleton firstChannel =
        (SortedSet.singleton firstChannel).insert secondChannel () :=
      congrArg Prod.snd (Except.ok.inj hall)
    exact absurd hlost (by decide)
  · intro hname e turns hempty
    exact kept_of_ne hname hu hempty turns

/-- Two clients and two subscribers; the last call is made in vain. -/
def sharedTurns : List Turn :=
  [addition ⟨⟨1⟩⟩ firstChannel, addition ⟨⟨9⟩⟩ secondChannel,
    ⟨60, ⟨⟨6⟩, none, .markRead ⟨⟨1⟩⟩ 7⟩⟩, ⟨60, ⟨⟨7⟩, none, .store queuedNotification⟩⟩,
    addition ⟨⟨1⟩⟩ secondChannel, ⟨60, ⟨⟨8⟩, none, .unregister ⟨⟨1⟩⟩ firstChannel⟩⟩,
    ⟨60, ⟨⟨9⟩, some ⟨0, .transient "busy"⟩, .save ⟨⟨1⟩⟩ .empty⟩⟩]

theorem every_update_kept_iff_shared :
    (∀ v, januaryTable.partition v = januaryTable.partition ⟨⟨1⟩⟩ → v = ⟨⟨1⟩⟩) ∧
    januaryTable.table ≠ "excluded" ∧
    januaryEngine.store.messageRows januaryTable.table = .ok .empty ∧
    Channels.Reports januaryTable ⟨⟨1⟩⟩ (takeTurns januaryTable januaryEngine sharedTurns)
      (true, SortedSet.singleton secondChannel) ∧
    (ledger januaryTable ⟨⟨1⟩⟩ januaryEngine sharedTurns).readPosition = some 7 ∧
    Kept januaryTable ⟨⟨1⟩⟩ januaryEngine sharedTurns := by
  have hu : ∀ v, januaryTable.partition v = januaryTable.partition ⟨⟨1⟩⟩ → v = ⟨⟨1⟩⟩ :=
    fun v => (partition_eq_iff rfl ⟨⟨1⟩⟩ v).1
  have hname : januaryTable.table ≠ "excluded" := by decide
  have hempty : januaryEngine.store.messageRows januaryTable.table = .ok .empty := by decide
  have hkept := (every_update_kept_iff januaryTable ⟨⟨1⟩⟩ hu).2 hname januaryEngine sharedTurns
    hempty
  have hledger : ((acceptedCalls januaryTable januaryEngine sharedTurns).any
        (Ledger.isEntry ⟨⟨1⟩⟩), (ledger januaryTable ⟨⟨1⟩⟩ januaryEngine sharedTurns).channels) =
      (true, SortedSet.singleton secondChannel) := by
    decide +kernel
  exact ⟨hu, hname, hempty, hledger ▸ hkept.channels, by decide +kernel, hkept⟩

/-- A table whose name stands for the stored row in an upsert. -/
def shadowedTable : TableHandle where
  table := "excluded"
  valid_table := by decide
  maxTtl_le := UInt64.le_refl maxRetention

/-- Both calls are accepted, and the second channel is not there. -/
theorem second_channel_lost_in_shadowed :
    (∀ v, shadowedTable.partition v = shadowedTable.partition ⟨⟨1⟩⟩ → v = ⟨⟨1⟩⟩) ∧
    (emptyEngine shadowedTable).store.messageRows shadowedTable.table = .ok .empty ∧
    acceptedCalls shadowedTable (emptyEngine shadowedTable) (additions ⟨⟨1⟩⟩) =
      [.register ⟨⟨1⟩⟩ firstChannel none, .register ⟨⟨1⟩⟩ secondChannel none] ∧
    Channels.Reports shadowedTable ⟨⟨1⟩⟩
      (takeTurns shadowedTable (emptyEngine shadowedTable) (additions ⟨⟨1⟩⟩))
      (true, SortedSet.singleton firstChannel) ∧
    (ledger shadowedTable ⟨⟨1⟩⟩ (emptyEngine shadowedTable) (additions ⟨⟨1⟩⟩)).channels ≠
      SortedSet.singleton firstChannel := by
  refine ⟨fun v => (partition_eq_iff rfl ⟨⟨1⟩⟩ v).1, messageRows_emptyEngine shadowedTable,
    acceptedCalls_eq ⟨_, messageRows_emptyEngine shadowedTable⟩ _,
    reports_additions rfl ⟨⟨1⟩⟩, ?_⟩
  rw [channels_additions]
  decide

end Tables

end Mailbox

end PushQueue
