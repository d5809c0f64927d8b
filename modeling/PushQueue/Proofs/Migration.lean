import PushQueue.Proofs.Channels
import PushQueue.Proofs.Router

/-!
Moving a subscriber to the table of another month. The channels of the old month are those of the
new one afterwards, unless there are none: then nothing is written, and a set that is there already
stays.
-/

namespace PushQueue.Migration

open Channels

variable {source target : TableHandle} {router : Router} {m : Moment} {u : SubscriberId}
  {e e' : Engine} {rows : MessageRows} {store : Store}

theorem messageRows_of_setMonth {month : String} {found : Bool}
    (h : (router.setMonth m u month).Gives e found store) {name : String}
    (hrows : e.store.messageRows name = .ok rows) : store.messageRows name = .ok rows :=
  Store.messageRows_of_updateRouters h.of_tracked.of_call hrows

theorem messageRows_of_save {now : Instant} {channels : SortedSet ChannelId}
    (h : (save target now u channels).Gives e () store) :
    (∀ name, target.table ≠ name → store.messageRows name = e.store.messageRows name) ∧
    ∃ rows, store.messageRows target.table = .ok rows ∧
      profile rows (target.partition u) = .ok (true, channels) := by
  obtain ⟨rows, content, -, hprofile, rfl⟩ := save_of_gives h
  exact ⟨fun name hne => Store.messageRows_setTable_of_ne hne _ _, _,
    Store.messageRows_setTable target.valid_table _ _, hprofile⟩

/-- What a move that succeeds does to the message tables: nothing if there are no channels, and else
it writes them to the target. -/
theorem move_of_gives (h : (moveSubscriber source target router m u).Gives e () store) :
    ∃ rows found channels, e.store.messageRows source.table = .ok rows ∧
      profile rows (source.partition u) = .ok (found, channels) ∧
      (∀ name rows, channels = .empty ∨ target.table ≠ name →
        e.store.messageRows name = .ok rows → store.messageRows name = .ok rows) ∧
      (channels ≠ .empty → ∃ rows, store.messageRows target.table = .ok rows ∧
        profile rows (target.partition u) = .ok (true, channels)) := by
  unfold moveSubscriber at h
  obtain ⟨⟨found, channels⟩, e₁, hall, hrest⟩ := h.of_bind
  obtain ⟨hstore, rows, hrows, hprofile⟩ := all_of_gives hall
  refine ⟨rows, found, channels, hrows, hprofile, ?_⟩
  cases hempty : channels.isEmpty with
  | true =>
    obtain rfl := SortedSet.isEmpty_iff.1 hempty
    obtain ⟨moved, hmonth, -⟩ := Action.Gives.of_bind_pure hrest
    rw [← hstore]
    exact ⟨fun name rows _ => messageRows_of_setMonth hmonth, fun hne => absurd rfl hne⟩
  | false =>
    have hne : channels ≠ .empty := fun heq => by simp [SortedSet.isEmpty_iff.2 heq] at hempty
    simp only [hempty, Bool.not_false, ↓reduceIte] at hrest
    obtain ⟨_, e₂, hsave, hrest⟩ := Action.Gives.of_bind hrest
    obtain ⟨moved, hmonth, -⟩ := Action.Gives.of_bind_pure hrest
    obtain ⟨hother, rows', hrows', hprofile'⟩ := messageRows_of_save hsave
    refine ⟨fun name rows hname hget => ?_, fun _ => ⟨rows', ?_, hprofile'⟩⟩
    · rw [← hstore, ← hother name (hname.resolve_left hne)] at hget
      exact messageRows_of_setMonth hmonth hget
    · exact messageRows_of_setMonth hmonth hrows'

/-- Whatever the tables hold, a move that succeeds leaves the answer of the old month as it is. The
new month answers the same channels afterwards if and only if there are any, or it answered none
before: a set without channels is not carried. -/
theorem move_carries_channels_iff (hne : source.table ≠ target.table)
    (htarget : e.store.messageRows target.table = .ok rows)
    (h : Action.run (moveSubscriber source target router m u) e = (.ok (), e')) :
    ∃ found channels, Reports source u e (found, channels) ∧
      Reports source u e' (found, channels) ∧
      (channels ≠ .empty → Reports target u e' (true, channels)) ∧
      (channels = .empty → ∀ answer, Reports target u e' answer ↔ Reports target u e answer) ∧
      ((∃ found', Reports target u e' (found', channels)) ↔
        channels ≠ .empty ∨ ∃ found', Reports target u e (found', .empty)) := by
  obtain ⟨sourceRows, found, channels, hrows, hprofile, hkept, hcarried⟩ :=
    move_of_gives ⟨e', h, rfl⟩
  have hsource := hkept source.table sourceRows (.inr hne.symm) hrows
  have hfull : channels ≠ .empty → Reports target u e' (true, channels) := by
    intro hchannels
    obtain ⟨rows', hrows', hprofile'⟩ := hcarried hchannels
    exact (reports_iff hrows').2 hprofile'
  have hleft : channels = .empty →
      ∀ answer, Reports target u e' answer ↔ Reports target u e answer := by
    intro hchannels answer
    rw [reports_iff htarget, reports_iff (hkept target.table rows (.inl hchannels) htarget)]
  refine ⟨found, channels, (reports_iff hrows).2 hprofile, (reports_iff hsource).2 hprofile, hfull,
    hleft, ?_⟩
  -- With channels both sides hold; without any the new month says what it said before.
  by_cases hchannels : channels = .empty
  · simp only [hleft hchannels, hchannels, ne_eq, not_true_eq_false, false_or]
  · exact ⟨fun _ => .inl hchannels, fun _ => ⟨true, hfull hchannels⟩⟩

def oldMonth : TableHandle where
  table := "message_2024_01"
  valid_table := by decide
  maxTtl_le := UInt64.le_refl maxRetention

def newMonth : TableHandle where
  table := "message_2024_02"
  valid_table := by decide
  maxTtl_le := UInt64.le_refl maxRetention

def monthsEngine : Engine where
  store := ⟨((SortedMap.empty.insert oldMonth.table (.messages .empty)).insert newMonth.table
    (.messages .empty)).insert Router.routers.handle.table (.routers .empty)⟩

def move : Action Unit := moveSubscriber oldMonth newMonth Router.routers ⟨⟨5⟩, 0⟩ ⟨⟨1⟩⟩

def registeredEngine : Engine :=
  (Action.run (register oldMonth ⟨5⟩ ⟨⟨1⟩⟩ ⟨⟨2⟩⟩ none) monthsEngine).2

theorem move_carries_channels_iff_registered :
    oldMonth.table ≠ newMonth.table ∧
    registeredEngine.store.messageRows newMonth.table = .ok .empty ∧
    Action.run move registeredEngine = (.ok (), (Action.run move registeredEngine).2) ∧
    ∃ found channels, Reports oldMonth ⟨⟨1⟩⟩ registeredEngine (found, channels) ∧
      channels = SortedSet.singleton ⟨⟨2⟩⟩ ∧
      Reports newMonth ⟨⟨1⟩⟩ (Action.run move registeredEngine).2 (true, channels) := by
  have hne : oldMonth.table ≠ newMonth.table := by decide
  have hempty : registeredEngine.store.messageRows newMonth.table = .ok .empty := by
    decide +kernel
  have hmoved : (Action.run move registeredEngine).1 = .ok () := by decide +kernel
  have hanswer : Reports oldMonth ⟨⟨1⟩⟩ registeredEngine (true, SortedSet.singleton ⟨⟨2⟩⟩) := by
    unfold Reports
    decide +kernel
  have hrun : Action.run move registeredEngine = (.ok (), (Action.run move registeredEngine).2) :=
    Prod.ext hmoved rfl
  obtain ⟨found, channels, hsource, -, hfull, -⟩ := move_carries_channels_iff hne hempty hrun
  obtain ⟨rfl, rfl⟩ := Prod.mk.inj (Except.ok.inj (hsource.symm.trans hanswer))
  exact ⟨hne, hempty, hrun, _, _, hsource, rfl, hfull (by decide)⟩

def retriedEngine : Engine :=
  (Action.run (unregister oldMonth ⟨6⟩ ⟨⟨1⟩⟩ ⟨⟨2⟩⟩)
    (Action.run move { registeredEngine with fault := some ⟨2, .transient "busy"⟩ }).2).2

/-- The next move succeeds without writing, and the channel is back in the new month. -/
theorem move_brings_channel_back :
    (Action.run move { registeredEngine with fault := some ⟨2, .transient "busy"⟩ }).1 =
      .error (.transient "busy") ∧
    (Action.run move retriedEngine).1 = .ok () ∧
    Reports oldMonth ⟨⟨1⟩⟩ (Action.run move retriedEngine).2 (true, .empty) ∧
    Reports newMonth ⟨⟨1⟩⟩ (Action.run move retriedEngine).2
      (true, SortedSet.singleton ⟨⟨2⟩⟩) := by
  unfold Reports
  decide +kernel

end PushQueue.Migration
