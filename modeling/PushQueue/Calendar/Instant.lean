import PushQueue.Calendar.Date

/-! Readings of the wall clock, in milliseconds since the start of 1970 UTC. -/

namespace PushQueue

structure Instant where
  ms : Int
deriving DecidableEq

namespace Instant

/-- Whole milliseconds, zero before 1970. -/
def millis (t : Instant) : UInt64 := UInt64.ofNat t.ms.toNat

/-- Whole seconds, zero before 1970. -/
def seconds (t : Instant) : UInt64 := UInt64.ofNat (t.ms / 1000).toNat

def date (t : Instant) : Date := Date.ofDays (t.ms / 86400000)

def hour (t : Instant) : Nat := (t.ms / 3600000 % 24).toNat

end Instant

/-- The second `lifetime` seconds after `second`, or the last one that 64 bits hold. -/
def secondAfter (second lifetime : UInt64) : UInt64 :=
  if second.toNat + lifetime.toNat < UInt64.size then second + lifetime
  else UInt64.ofNat (UInt64.size - 1)

end PushQueue
