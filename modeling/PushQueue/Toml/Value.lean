/-!
TOML values and the document they are entered into. A table remembers how it was introduced, since
that decides what may still be added to it: a table is opened once, and its dotted keys and its
header do not mix.
-/

namespace PushQueue.Toml

inductive Origin where
  /-- Written in braces; nothing is added to it later. -/
  | braces
  | header
  /-- Passed through by the header of a table inside it. -/
  | passed
  /-- Passed through by a dotted key. -/
  | dotted
deriving DecidableEq

inductive Value where
  | string (value : String)
  | integer (value : Int)
  | float (value : Float)
  | boolean (value : Bool)
  | moment (text : String)
  | array (items : List Value)
  | table (origin : Origin) (members : List (String × Value))
  /-- Tables opened under one repeated header; headers and keys reach the last of them. -/
  | tables (earlier : List (List (String × Value))) (last : List (String × Value))

abbrev Members := List (String × Value)

namespace Members

def replace (name : String) (value : Value) (members : Members) : Members :=
  members.map fun m => if m.1 = name then (name, value) else m

def add (name : String) (value : Value) (members : Members) : Option Members :=
  if (members.lookup name).isSome then none else some (members ++ [(name, value)])

/--
Change the table at the end of a path, making the tables that are missing on the way. A path of a
dotted key (`through` is `dotted`) enters no table that has a header.
-/
def descend (through : Origin) (change : Origin → Members → Option Members) :
    List String → Origin → Members → Option Members
  | [], origin, members => change origin members
  | name :: path, _, members =>
    match members.lookup name with
    | none =>
      (descend through change path through []).map fun t => members ++ [(name, .table through t)]
    | some (.table origin t) =>
      if origin = .braces ∨ (through = .dotted ∧ origin = .header) then none
      else
        (descend through change path origin t).map fun t => members.replace name (.table origin t)
    | some (.tables earlier last) =>
      (descend through change path .header last).map fun t =>
        members.replace name (.tables earlier t)
    | some _ => none

/-- Enter a value under a dotted key: its path, and its name in the table there. -/
def enter (path : List String) (name : String) (value : Value) :
    Origin → Members → Option Members :=
  descend .dotted
    (fun origin members =>
      if origin = .dotted ↔ path = [] then none else members.add name value)
    path

end Members

/-- A document that is being read: all its members, and the path of the table that is open. -/
structure Document where
  root : Members
  here : List String

namespace Document

def empty : Document := ⟨[], []⟩

def enter (path : List String) (name : String) (value : Value) (d : Document) : Option Document :=
  (Members.descend .passed (Members.enter path name value) d.here .header d.root).map fun root =>
    { d with root }

/-- Open a table under a header of its own; it must be new, or only passed through so far. -/
def openTable (path : List String) (name : String) (d : Document) : Option Document :=
  (Members.descend .passed
    (fun _ members =>
      match members.lookup name with
      | none => some (members ++ [(name, .table .header [])])
      | some (.table .passed t) => some (members.replace name (.table .header t))
      | some _ => none)
    path .header d.root).map fun root => ⟨root, path ++ [name]⟩

def openNext (path : List String) (name : String) (d : Document) : Option Document :=
  (Members.descend .passed
    (fun _ members =>
      match members.lookup name with
      | none => some (members ++ [(name, .tables [] [])])
      | some (.tables earlier last) => some (members.replace name (.tables (earlier ++ [last]) []))
      | some _ => none)
    path .header d.root).map fun root => ⟨root, path ++ [name]⟩

end Document

end PushQueue.Toml
