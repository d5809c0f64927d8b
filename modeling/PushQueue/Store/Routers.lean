import PushQueue.Store.Basic

/-!
Operations on the rows of one router table, one row a partition. A row is given up to a connection
of the same router type that is newer, or once no node holds it.
-/

namespace PushQueue

namespace RouterContent

def yieldsTo (stored new : RouterContent) : Bool :=
  stored.routerType = new.routerType &&
    (stored.node.isNone || stored.connectedAt < new.connectedAt)

/-- The new row, with the stored values of what it leaves out. -/
def mergeInto (new stored : RouterContent) : RouterContent where
  connectedAt := new.connectedAt
  routerType := new.routerType
  routerData := new.routerData <|> stored.routerData
  lastConnect := new.lastConnect <|> stored.lastConnect
  node := new.node <|> stored.node
  recordVersion := new.recordVersion <|> stored.recordVersion
  month := new.month <|> stored.month

end RouterContent

namespace Store

/-- Replace the rows of a router table by those that `f` makes of them. -/
def updateRouters {α : Type} (name : String) (f : RouterRows → α × RouterRows) (s : Store) :
    Except StoreError (α × Store) :=
  (s.routerRows name).map fun rows =>
    let r := f rows
    (r.1, s.setTable name (.routers r.2))

def getRouter (s : Store) (name partition : String) :
    Except StoreError (Option RouterContent) :=
  (s.routerRows name).map fun rows => rows.get? partition

def putRouter (name partition : String) (new : RouterContent) :
    Store → Except StoreError (Bool × Store) :=
  updateRouters name fun rows =>
    if (rows.get? partition).all fun stored => stored.yieldsTo new then
      (true, upsert name partition new new.mergeInto rows)
    else (false, rows)

/-- Change a row that is there and satisfies `holds`; false if there is none. -/
def changeRouter (name partition : String) (holds : RouterContent → Bool)
    (change : RouterContent → RouterContent) : Store → Except StoreError (Bool × Store) :=
  updateRouters name fun rows =>
    match rows.get? partition with
    | some stored =>
      if holds stored then (true, rows.insert partition (change stored)) else (false, rows)
    | none => (false, rows)

def setMonth (name partition month : String) (lastConnect : UInt64) :
    Store → Except StoreError (Bool × Store) :=
  changeRouter name partition (fun _ => true) fun row =>
    { row with month := some month, lastConnect := some lastConnect }

def setLastConnect (name partition : String) (lastConnect : UInt64) :
    Store → Except StoreError (Bool × Store) :=
  changeRouter name partition (fun _ => true) fun row =>
    { row with lastConnect := some lastConnect }

/-- Detach the node, if it and the time of its connection are still the stored ones. -/
def clearNode (name partition node : String) (connectedAt : UInt64) :
    Store → Except StoreError (Bool × Store) :=
  changeRouter name partition
    (fun row => row.node = some node && row.connectedAt = connectedAt)
    fun row => { row with node := none }

/-- Delete what a partition holds; on a message table these are all its rows. -/
def deletePartition (name partition : String) (s : Store) : Except StoreError (Bool × Store) :=
  (s.table name).map fun t =>
    match t with
    | .routers rows => (rows.contains partition, s.setTable name (.routers (rows.erase partition)))
    | .messages rows =>
      let kept := rows.filter fun k _ => decide (k.partition ≠ partition)
      (kept.size < rows.size, s.setTable name (.messages kept))

end Store

end PushQueue
