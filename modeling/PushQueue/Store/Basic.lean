import PushQueue.Store.Row
import PushQueue.StoreError
import PushQueue.TableName

/-!
The store: named tables of two kinds, and the operations on the catalog of tables. A name is checked
before anything else; an operation on a missing table or on one of the other kind fails.
-/

namespace PushQueue

inductive TableKind where
  | messages
  | routers
deriving DecidableEq

inductive Table where
  | messages (rows : MessageRows)
  | routers (rows : RouterRows)
deriving DecidableEq

namespace Table

def kind : Table → TableKind
  | .messages _ => .messages
  | .routers _ => .routers

def empty : TableKind → Table
  | .messages => .messages .empty
  | .routers => .routers .empty

/-- The index of a table shares one space of names with the tables. -/
def indexName (kind : TableKind) (name : String) : String :=
  match kind with
  | .messages => "idx_" ++ name ++ "_expiry"
  | .routers => "idx_" ++ name ++ "_last_connect"

end Table

structure Store where
  tables : SortedMap String Table
deriving DecidableEq

namespace Store

def empty : Store := ⟨.empty⟩

instance : Inhabited Store := ⟨empty⟩

def checkName (name : String) : Except StoreError Unit :=
  if TableName.isValid name then .ok () else .error (.invalidTableName name)

def noTable (name : String) : StoreError := .unavailable ("no such table: " ++ name)

def wrongKind (name : String) : StoreError := .unavailable ("no such column in table " ++ name)

def table (s : Store) (name : String) : Except StoreError Table :=
  match checkName name with
  | .error e => .error e
  | .ok () =>
    match s.tables.get? name with
    | some t => .ok t
    | none => .error (noTable name)

def messageRows (s : Store) (name : String) : Except StoreError MessageRows :=
  match s.table name with
  | .error e => .error e
  | .ok (.messages rows) => .ok rows
  | .ok (.routers _) => .error (wrongKind name)

def routerRows (s : Store) (name : String) : Except StoreError RouterRows :=
  match s.table name with
  | .error e => .error e
  | .ok (.routers rows) => .ok rows
  | .ok (.messages _) => .error (wrongKind name)

/-- An upsert speaks of the row it offers as `excluded`. In a table of that very name the word
stands for the stored row, which is then assigned to itself. -/
def offersShadowed (name : String) : Bool := name = "excluded"

/-- The rows of a table after an upsert: where none is stored `fresh` is written, and a stored row
becomes what `merge` makes of it. -/
def upsert {κ ν : Type} [Ord κ] [DecidableEq κ] [Std.TransOrd κ] [Std.LawfulEqOrd κ]
    (name : String) (key : κ) (fresh : ν) (merge : ν → ν) (rows : SortedMap κ ν) :
    SortedMap κ ν :=
  match rows.get? key with
  | none => rows.insert key fresh
  | some stored => if offersShadowed name then rows else rows.insert key (merge stored)

theorem get?_upsert {κ ν : Type} [Ord κ] [DecidableEq κ] [Std.TransOrd κ] [Std.LawfulEqOrd κ]
    (name : String) (key k : κ) (fresh : ν) (merge : ν → ν) (rows : SortedMap κ ν) :
    (upsert name key fresh merge rows).get? k =
      if key = k then
        match rows.get? key with
        | none => some fresh
        | some stored => some (if offersShadowed name then stored else merge stored)
      else rows.get? k := by
  unfold upsert
  cases h : rows.get? key with
  | none => simp [SortedMap.get?_insert]
  | some stored =>
    by_cases hname : offersShadowed name = true
    · by_cases hk : key = k
      · subst hk; simp [h, hname]
      · simp [hk, hname]
    · simp [SortedMap.get?_insert, hname]

def setTable (s : Store) (name : String) (t : Table) : Store := ⟨s.tables.insert name t⟩

/-- A new table of this name would clash with an index, or its index with a table. -/
def clashes (s : Store) (kind : TableKind) (name : String) : Bool :=
  s.tables.contains (Table.indexName kind name) ||
    s.tables.entries.any fun e => Table.indexName e.2.kind e.1 = name

/-- Make a table; false if it is there already. A valid name is as good as any other here, also one
that is a word of a query language or that an engine keeps for itself. -/
def createTable (kind : TableKind) (name : String) (s : Store) :
    Except StoreError (Bool × Store) :=
  match checkName name with
  | .error e => .error e
  | .ok () =>
    match s.tables.get? name with
    | some t => if t.kind = kind then .ok (false, s) else .error (wrongKind name)
    | none =>
      if s.clashes kind name then .error (.unavailable ("name in use: " ++ name))
      else .ok (true, s.setTable name (.empty kind))

def messageTables (s : Store) : List String :=
  (s.tables.entries.filter fun e => e.2.kind = .messages).map Prod.fst

/-- Drop a message table with its rows; false if there is none of this name. -/
def dropMessageTable (name : String) (s : Store) : Except StoreError (Bool × Store) :=
  match checkName name with
  | .error e => .error e
  | .ok () =>
    match s.tables.get? name with
    | some (.messages _) => .ok (true, ⟨s.tables.erase name⟩)
    | _ => .ok (false, s)

end Store

end PushQueue
