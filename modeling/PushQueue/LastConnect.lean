import PushQueue.Calendar.Instant

/-!
The last-connect index: year, month, hour and a random bucket as one decimal number, so that the
connections of one hour are spread over several keys.
-/

namespace PushQueue.LastConnect

def maxBuckets : Nat := 10000

def defaultBuckets : Nat := 10

/-- At least one bucket, at most as many as four digits can name. -/
def clampBuckets (buckets : Nat) : Nat := min (max buckets 1) maxBuckets

/-- The value of a connection at `now`; `draw` is the random choice of a bucket. -/
def stamp (now : Instant) (buckets draw : Nat) : UInt64 :=
  let month := now.date.month
  let bucket := draw % clampBuckets buckets
  UInt64.ofNat (month.year.toNat * 100000000 + month.number * 1000000 + now.hour * 10000 + bucket)

/-- The digits that a value of this month starts with. -/
def monthDigits (m : Month) : List Char := m.digits []

def inMonth (value : Option UInt64) (m : Month) : Bool :=
  match value with
  | some v => (monthDigits m).isPrefixOf (Nat.toDigits 10 v.toNat)
  | none => false

end PushQueue.LastConnect
