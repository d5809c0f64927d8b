import PushQueue.Toml.Value

/-!
Reading records out of TOML values. A record is a table, whose unknown members are ignored; an array
of its fields in order, whose end may be cut off and whose further items are ignored; or a date or
time, which has none of its fields. A value of a wrong kind is refused.
-/

namespace PushQueue.Toml

namespace Value

def asString? : Value → Option String
  | .string s => some s
  | _ => none

def asBoolean? : Value → Option Bool
  | .boolean b => some b
  | _ => none

def asBelow? (bound : Nat) : Value → Option Nat
  | .integer n => if 0 ≤ n ∧ n < bound then some n.toNat else none
  | _ => none

def asWord? (v : Value) : Option UInt64 := (v.asBelow? UInt64.size).map UInt64.ofNat

def asWord32? (v : Value) : Option UInt32 := (v.asBelow? UInt32.size).map UInt32.ofNat

/-- The fields of a record, under the names given in order. -/
def asRecord? (names : List String) : Value → Option Members
  | .table _ members => some members
  | .tables earlier last => some (names.zip ((earlier ++ [last]).map (.table .header)))
  | .array items => some (names.zip items)
  | .moment _ => some []
  | _ => none

end Value

def Members.field {α : Type} (fallback : α) (decode : Value → Option α) (fields : Members)
    (name : String) : Option α :=
  match fields.lookup name with
  | some v => decode v
  | none => some fallback

end PushQueue.Toml
