import PushQueue.Text.Blank
import PushQueue.Text.Quoted
import PushQueue.Uuid

/-!
Identifiers of subscribers and of their channels. Both are UUIDs: any accepted form is read, blanks
around it are dropped, and the hyphenated lower case form is the one written back.
-/

namespace PushQueue

inductive Role where
  | subscriber
  | channel
deriving DecidableEq

structure Ident (role : Role) where
  uuid : Uuid
deriving DecidableEq, Inhabited

/-- A user agent that receives notifications. -/
abbrev SubscriberId := Ident .subscriber

/-- One subscription of a subscriber. -/
abbrev ChannelId := Ident .channel

inductive IdentError where
  | notUuid (text : String)
deriving DecidableEq

def IdentError.message : IdentError → String
  | .notUuid text => "invalid UUID: " ++ Text.quote text

namespace Ident

variable {role : Role}

def parse (text : String) : Except IdentError (Ident role) :=
  match Uuid.ofChars? (Text.trimBlanks text.toList) with
  | some uuid => .ok ⟨uuid⟩
  | none => .error (.notUuid text)

def text (id : Ident role) : String := id.uuid.hyphenated

def simple (id : Ident role) : String := id.uuid.simple

instance : Ord (Ident role) := ⟨compareOn Ident.uuid⟩

instance : Std.TransOrd (Ident role) :=
  inferInstanceAs (Std.TransCmp (compareOn fun a : Ident role => a.uuid))

instance : Std.LawfulEqOrd (Ident role) where
  compare_self {_} := Std.ReflCmp.compare_self
  eq_of_compare {a b} h := by
    have hu : compare a.uuid b.uuid = .eq := h
    have : a.uuid = b.uuid := Std.LawfulEqCmp.eq_of_compare hu
    cases a; cases b; simp_all

end Ident

end PushQueue
