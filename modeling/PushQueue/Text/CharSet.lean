/-! Sets of characters given by ranges of code points, as the Unicode property files list them. -/

namespace PushQueue.Text

/-- Inclusive ranges of code points, in ascending order. -/
abbrev CharSet := List (Nat × Nat)

def CharSet.contains (set : CharSet) (c : Char) : Bool :=
  set.any fun range => range.1 ≤ c.toNat && c.toNat ≤ range.2

end PushQueue.Text
