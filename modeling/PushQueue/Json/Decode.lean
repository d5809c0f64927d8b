import PushQueue.Json.Value
import PushQueue.SortedMap

/-!
Reading records out of JSON values. A record is an object, whose unknown members are ignored, or an
array of its fields in order, whose end may be cut off; a value of a wrong kind is refused.
-/

namespace PushQueue.Json

def asBool? : Json → Option Bool
  | .bool b => some b
  | _ => none

def asString? : Json → Option String
  | .string s => some s
  | _ => none

/-- An unsigned integer below `bound`; doubles are refused even where they are whole. -/
def asBelow? (bound : Nat) : Json → Option Nat
  | .integer n => if 0 ≤ n ∧ n < bound then some n.toNat else none
  | _ => none

def asWord? (j : Json) : Option UInt64 := (j.asBelow? UInt64.size).map UInt64.ofNat

def asByte? (j : Json) : Option UInt8 := (j.asBelow? UInt8.size).map UInt8.ofNat

def asMembers? : Json → Option (List (String × Json))
  | .object members => some members
  | _ => none

def asItems? : Json → Option (List Json)
  | .array items => some items
  | _ => none

def asStrings? (j : Json) : Option (List String) :=
  j.asItems?.bind fun items => items.mapM asString?

def asStringMap? (j : Json) : Option (SortedMap String String) :=
  j.asMembers?.bind fun members =>
    (members.mapM fun (m : String × Json) => m.2.asString?.map fun s => (m.1, s)).map
      SortedMap.ofList

def ofStringMap (m : SortedMap String String) : Json :=
  .object (m.entries.map fun e => (e.1, .string e.2))

/-- The fields of a record, under the names given in order. -/
def asRecord? (names : List String) : Json → Option (List (String × Json))
  | .object members => some members
  | .array items => if items.length ≤ names.length then some (names.zip items) else none
  | _ => none

def required {α : Type} (decode : Json → Option α) (fields : List (String × Json))
    (name : String) : Option α :=
  (fields.lookup name).bind decode

/-- A field with a value to use where it is absent; null is not absent. -/
def withDefault {α : Type} (fallback : α) (decode : Json → Option α)
    (fields : List (String × Json)) (name : String) : Option α :=
  match fields.lookup name with
  | some j => decode j
  | none => some fallback

def optional {α : Type} (decode : Json → Option α) (fields : List (String × Json))
    (name : String) : Option (Option α) :=
  match fields.lookup name with
  | none | some .null => some none
  | some j => (decode j).map some

/-- One of several words, as a string or as the name of an object's only member, which is null. -/
def asWordOf? {α : Type} (words : List (String × α)) : Json → Option α
  | .string s => words.lookup s
  | .object [(name, .null)] => words.lookup name
  | _ => none

def memberIf {α : Type} (name : String) (encode : α → Json) : Option α → List (String × Json)
  | some a => [(name, encode a)]
  | none => []

end PushQueue.Json
