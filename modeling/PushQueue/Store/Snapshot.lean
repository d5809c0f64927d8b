import PushQueue.Schema
import PushQueue.Store.Basic
import PushQueue.Store.RowJson

/-! A store as one JSON value: the version of the schema, and every table with its rows. -/

namespace PushQueue

namespace TableKind

def word : TableKind → String
  | .messages => "message"
  | .routers => "router"

def ofWord? (s : String) : Option TableKind :=
  if s = "message" then some .messages else if s = "router" then some .routers else none

end TableKind

namespace Table

def rowsJson : Table → Json
  | .messages rows => .list (fun e => (MessageRow.mk e.1 e.2).toJson) rows.entries
  | .routers rows => .list (fun e => RouterContent.toJson e.1 e.2) rows.entries

def toJson (t : Table) : Json :=
  .ofMembers [("kind", .string t.kind.word), ("rows", t.rowsJson)]

def ofJson? (j : Json) : Option Table := do
  let fields ← j.asMembers?
  let kind ← Json.required (fun k => k.asString?.bind TableKind.ofWord?) fields "kind"
  let rows ← Json.required Json.asItems? fields "rows"
  match kind with
  | .messages => do
    let rows ← rows.mapM MessageRow.ofJson?
    return .messages (SortedMap.ofList (rows.map fun r => (r.key, r.content)))
  | .routers => do
    let rows ← rows.mapM RouterContent.ofJson?
    return .routers (SortedMap.ofList rows)

end Table

namespace Store

/-- The store, as the current version of the schema. -/
def toJson (s : Store) : Json :=
  .ofMembers [("version", .natural schemaVersion),
    ("tables", .ofMembers (s.tables.entries.map fun e => (e.1, e.2.toJson)))]

def ofJson? (j : Json) : Option (Schema × Store) := do
  let fields ← j.asMembers?
  let version ← Json.required (Json.asBelow? UInt32.size) fields "version"
  let tables ← Json.required Json.asMembers? fields "tables"
  let tables ← tables.mapM fun t => (Table.ofJson? t.2).map fun table => (t.1, table)
  return (⟨version, true⟩, ⟨SortedMap.ofList tables⟩)

/-- Open a stored snapshot, or a new store where there is none. -/
def openSnapshot (snapshot : Option Json) : Except StoreError Store :=
  match snapshot with
  | none => .ok .empty
  | some j =>
    match ofJson? j with
    | none => .error (.unavailable "not a database")
    | some (schema, store) => schema.migrate.map fun _ => store

end Store

end PushQueue
