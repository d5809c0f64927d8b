import PushQueue.Channels
import PushQueue.Router

/-!
The monthly move. A subscriber's channels are carried to the table of another month and its router
record is pointed there; messages stay behind and age out with their table.
-/

namespace PushQueue.Migration

def moveSubscriber (source target : TableHandle) (router : Router) (m : Moment)
    (subscriber : SubscriberId) : Action Unit := do
  let (_, channels) ← Channels.all source subscriber
  if !channels.isEmpty then Channels.save target m.now subscriber channels
  let _ ← router.setMonth m subscriber target.table

/-- Make the named message tables; gives those that were not there. -/
def makeTables : List String → Action (List String)
  | [] => return []
  | name :: rest => do
    let made ← Action.call (Store.createTable .messages name)
    let others ← makeTables rest
    return if made then name :: others else others

def ensureTables (rotation : Rotation) (today : Date) : Action (List String) :=
  makeTables [rotation.currentTable today, rotation.nextTable today]

/-- A table of this rotation for a month before the retained ones. -/
def isRetired (rotation : Rotation) (today : Date) (name : String) : Bool :=
  match TableName.month rotation.stem name with
  | .ok month => month < rotation.oldest today
  | .error _ => false

/-- Drop the named message tables; gives those that were there. -/
def dropTables : List String → Action (List String)
  | [] => return []
  | name :: rest => do
    let dropped ← Action.call (Store.dropMessageTable name)
    let others ← dropTables rest
    return if dropped then name :: others else others

def dropRetired (rotation : Rotation) (today : Date) : Action (List String) := do
  let names ← Action.read fun s => .ok s.messageTables
  dropTables (names.filter (isRetired rotation today))

end PushQueue.Migration
