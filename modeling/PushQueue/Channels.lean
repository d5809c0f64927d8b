import PushQueue.Engine
import PushQueue.TableHandle

/-!
The channels of a subscriber, kept as one set on the metadata row of its partition. Single channels
come and go by changes of the set within the store, so that no change is lost to another.
-/

namespace PushQueue.Channels

/-- Add a channel, and let the row live for `ttl` from now. -/
def register (t : TableHandle) (now : Instant) (subscriber : SubscriberId) (channel : ChannelId)
    (ttl : Option UInt64) : Action Bool :=
  .tracked .registerChannel do
    let expiry := t.expiryAt now.seconds ttl
    let update := ChannelUpdate.add (SortedSet.singleton channel.text)
    let _ ← Action.call (Store.updateChannels t.table (t.partition subscriber) update expiry)
    return true

/-- Remove a channel; says whether it was registered. -/
def unregister (t : TableHandle) (now : Instant) (subscriber : SubscriberId)
    (channel : ChannelId) : Action Bool :=
  .tracked .unregisterChannel do
    let expiry := t.expiryAt now.seconds none
    let update := ChannelUpdate.remove (SortedSet.singleton channel.text)
    let before ← Action.call (Store.updateChannels t.table (t.partition subscriber) update expiry)
    return before.contains channel.text

/-- The ids of a set of texts, if every text is an id. -/
def readAll (texts : SortedSet String) : Except StoreError (SortedSet ChannelId) :=
  match texts.keys.mapM (fun text => (Ident.parse text : Except IdentError ChannelId)) with
  | .ok channels => .ok (SortedSet.ofList channels)
  | .error reason => .error (.invalidIdent reason)

/-- Whether the metadata row is there, and the channels on it. -/
def all (t : TableHandle) (subscriber : SubscriberId) : Action (Bool × SortedSet ChannelId) :=
  .tracked .allChannels do
    let key := RowKey.metadata (t.partition subscriber)
    match ← Action.read fun s => s.getRow t.table key with
    | none => return (false, .empty)
    | some row =>
      let channels ← Action.ofExcept (readAll (row.channels.getD .empty))
      return (true, channels)

/-- Write the metadata row anew with these channels; the read position is gone with the old row. -/
def save (t : TableHandle) (now : Instant) (subscriber : SubscriberId)
    (channels : SortedSet ChannelId) : Action Unit :=
  .tracked .saveChannels do
    let content : RowContent :=
      { channels := some (SortedSet.ofList (channels.keys.map Ident.text))
        expiry := t.expiryAt now.seconds none }
    Action.call (Store.putRow t.table ⟨.metadata (t.partition subscriber), content⟩)

end PushQueue.Channels
