import PushQueue.SortKey
import PushQueue.SortedMap

/-! The rows of message tables and of router tables. -/

namespace PushQueue

/-- The address of a row in a message table: a subscriber's partition and a place in it. -/
structure RowKey where
  partition : String
  sortKey : String
deriving DecidableEq

namespace RowKey

/-- Both parts compare byte by byte, the partition first. -/
instance : Ord RowKey :=
  ⟨fun a b => (Text.compareBytes a.partition b.partition).then
    (Text.compareBytes a.sortKey b.sortKey)⟩

instance : Std.TransOrd RowKey :=
  inferInstanceAs (Std.TransCmp
    (compareLex (compareOn fun a : RowKey => Text.utf8 a.partition)
      (compareOn fun a : RowKey => Text.utf8 a.sortKey)))

instance : Std.LawfulEqOrd RowKey where
  compare_self {_} := Std.ReflCmp.compare_self
  eq_of_compare {a b} h := by
    have h : (Text.compareBytes a.partition b.partition).then
        (Text.compareBytes a.sortKey b.sortKey) = .eq := h
    rw [Ordering.then_eq_eq] at h
    have hp : a.partition = b.partition := Std.LawfulEqCmp.eq_of_compare h.1
    have hs : a.sortKey = b.sortKey := Std.LawfulEqCmp.eq_of_compare h.2
    cases a; cases b; simp_all

/-- The row that holds a subscriber's channels and read position. -/
def metadata (partition : String) : RowKey := ⟨partition, SortKey.metadata⟩

def isMetadata (k : RowKey) : Bool := k.sortKey = SortKey.metadata

end RowKey

/-- What a message row holds. Messages and the metadata row share the shape. -/
structure RowContent where
  channels : Option (SortedSet String) := none
  /-- How far the subscriber has read the queue. -/
  readPosition : Option UInt64 := none
  headers : Option (SortedMap String String) := none
  data : Option String := none
  ttl : Option UInt64 := none
  timestamp : Option UInt64 := none
  updateId : Option String := none
  /-- The second after which a sweep removes the row. -/
  expiry : UInt64 := 0
deriving DecidableEq

structure MessageRow where
  key : RowKey
  content : RowContent
deriving DecidableEq

abbrev MessageRows := SortedMap RowKey RowContent

structure RouterContent where
  connectedAt : UInt64
  routerType : String
  /-- A JSON object, as text. -/
  routerData : Option String := none
  lastConnect : Option UInt64 := none
  node : Option String := none
  recordVersion : Option UInt8 := none
  month : Option String := none
deriving DecidableEq

abbrev RouterRows := SortedMap String RouterContent

end PushQueue
