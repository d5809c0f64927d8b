import PushQueue.Store.Basic

/-!
Operations on the rows of one message table. Each gives its result and the store after it, or an
error; a store that is not given back is unchanged.
-/

namespace PushQueue

inductive KeyRange where
  | below (bound : String)
  | above (bound : String)
deriving DecidableEq

def KeyRange.contains (range : KeyRange) (sortKey : String) : Bool :=
  match range with
  | .below bound => Text.compareBytes sortKey bound = .lt
  | .above bound => Text.compareBytes bound sortKey = .lt

inductive ChannelUpdate where
  | add (channels : SortedSet String)
  | remove (channels : SortedSet String)

def ChannelUpdate.apply (update : ChannelUpdate) (channels : SortedSet String) :
    SortedSet String :=
  match update with
  | .add more => SortedSet.union channels more
  | .remove less => SortedSet.diff channels less

/-- Seconds compare as signed numbers in the sweep. -/
def expiredBefore (now : UInt64) (content : RowContent) : Bool :=
  content.expiry.toInt64 < now.toInt64

namespace Store

/-- Replace the rows of a message table by those that `f` makes of them. -/
def updateMessages {α : Type} (name : String) (f : MessageRows → α × MessageRows) (s : Store) :
    Except StoreError (α × Store) :=
  (s.messageRows name).map fun rows =>
    let r := f rows
    (r.1, s.setTable name (.messages r.2))

def getRow (s : Store) (name : String) (key : RowKey) : Except StoreError (Option RowContent) :=
  (s.messageRows name).map fun rows => rows.get? key

def putRow (name : String) (row : MessageRow) : Store → Except StoreError (Unit × Store) :=
  updateMessages name fun rows => ((), rows.insert row.key row.content)

/-- Write several rows; without any the table is not looked at. -/
def putRows (name : String) (rows : List MessageRow) (s : Store) :
    Except StoreError (Unit × Store) :=
  if rows.isEmpty then (checkName name).map fun _ => ((), s)
  else
    updateMessages name
      (fun stored => ((), rows.foldl (fun m r => m.insert r.key r.content) stored)) s

/-- Delete a row. Under a condition the stored row has to be there with that update id; without one
the answer is always yes. -/
def deleteRow (name : String) (key : RowKey) (updateId : Option String) :
    Store → Except StoreError (Bool × Store) :=
  updateMessages name fun rows =>
    match updateId with
    | none => (true, rows.erase key)
    | some id =>
      if (rows.get? key).bind RowContent.updateId = some id then (true, rows.erase key)
      else (false, rows)

/-- Change the channels of a partition's metadata row, which is made if it is missing, and set its
expiry. Gives the channels before the change. -/
def updateChannels (name partition : String) (update : ChannelUpdate) (expiry : UInt64) :
    Store → Except StoreError (SortedSet String × Store) :=
  updateMessages name fun rows =>
    let key := RowKey.metadata partition
    let before := ((rows.get? key).bind RowContent.channels).getD .empty
    let write (row : RowContent) := { row with channels := some (update.apply before), expiry }
    (before, upsert name key (write {}) write rows)

/-- Set the read position and the expiry of a partition's metadata row, which is made if it is
missing. -/
def setReadPosition (name partition : String) (position expiry : UInt64) :
    Store → Except StoreError (Unit × Store) :=
  updateMessages name fun rows =>
    let write (row : RowContent) := { row with readPosition := some position, expiry }
    ((), upsert name (RowKey.metadata partition) (write {}) write rows)

def select (rows : MessageRows) (partition : String) (range : KeyRange) : List MessageRow :=
  (rows.filter fun k _ => k.partition = partition && range.contains k.sortKey).entries.map
    fun e => ⟨e.1, e.2⟩

def query (s : Store) (name partition : String) (range : KeyRange) (limit : Nat) :
    Except StoreError (List MessageRow) :=
  (s.messageRows name).map fun rows => (select rows partition range).take limit

/-- Remove the rows that expired before `now`; gives their number. -/
def sweep (name : String) (now : UInt64) : Store → Except StoreError (Nat × Store) :=
  updateMessages name fun rows =>
    let kept := rows.filter fun _ content => !expiredBefore now content
    (rows.size - kept.size, kept)

end Store

end PushQueue
