import PushQueue.Calendar.Date
import PushQueue.TableName

/-!
The rotation of monthly tables: the current month and the ones before it are retained, and the next
month's table is made ahead of time.
-/

namespace PushQueue

structure Rotation where
  /-- What the names of the monthly tables start with. -/
  stem : String
  /-- How many months are retained, the current one included. -/
  retained : Nat
  valid_stem : TableName.isValid stem = true
  retained_pos : 1 ≤ retained

namespace Rotation

def make (stem : String) (retained : Nat) : Except KeyError Rotation :=
  if h : TableName.isValid stem = true then .ok ⟨stem, max retained 1, h, by omega⟩
  else .error (.invalidTableName stem)

def maxWindow : Nat := 2147483647

/-- How many months before the current one are retained. -/
def past (r : Rotation) : Nat := min r.retained maxWindow - 1

/-- The retained months, oldest first, the current one last. -/
def months (r : Rotation) (today : Date) : List Month :=
  (List.range (r.past + 1)).map fun (i : Nat) => (today.walk ((i : Int) - r.past)).month

def oldest (r : Rotation) (today : Date) : Month := (today.walk (-r.past)).month

def tables (r : Rotation) (today : Date) : List String :=
  (r.months today).map (TableName.ofMonth r.stem)

def currentTable (r : Rotation) (today : Date) : String := TableName.ofMonth r.stem today.month

def nextTable (r : Rotation) (today : Date) : String :=
  TableName.ofMonth r.stem (today.walk 1).month

def retains (r : Rotation) (today : Date) (table : String) : Bool := (r.tables today).contains table

end Rotation

end PushQueue
