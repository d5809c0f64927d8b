/-!
The shortest decimal that reads back as a given double. A double stands for every real nearer to it
than to its neighbours; of the decimals in that interval those on the coarsest grid of powers of ten
have the fewest digits, and of two the nearer is taken.
-/

namespace PushQueue.Json

/-- A positive decimal: `digits` times ten to the `exponent`. -/
structure Decimal where
  digits : Nat
  exponent : Int

/-- The magnitude of a finite double as a significand times a power of two. -/
structure Binary where
  significand : Nat
  exponent : Int
  /-- The neighbour below is half as far as the one above. -/
  narrowBelow : Bool

def Binary.ofBits (bits : UInt64) : Binary :=
  let field : Nat := bits.toNat / Nat.pow 2 52 % Nat.pow 2 11
  let fraction : Nat := bits.toNat % Nat.pow 2 52
  if field = 0 then ⟨fraction, -1074, false⟩
  else ⟨fraction + Nat.pow 2 52, (field : Int) - 1075, fraction = 0 && field > 1⟩

/-- The grid point of the interval that is nearest to the double, on the grid of `10 ^ k`. -/
def Binary.onGrid? (b : Binary) (k : Int) : Option Nat :=
  let scale : Int := b.exponent - 2
  let num := Nat.pow 2 scale.toNat * Nat.pow 10 (-k).toNat
  let den := Nat.pow 2 (-scale).toNat * Nat.pow 10 k.toNat
  let value := 4 * b.significand * num
  let low := (4 * b.significand - (if b.narrowBelow then 1 else 2)) * num
  let high := (4 * b.significand + 2) * num
  let inside (d : Nat) : Bool :=
    if b.significand % 2 = 0 then low ≤ d * den && d * den ≤ high
    else low < d * den && d * den < high
  let below := value / den
  let nearer :=
    if 2 * (value - below * den) < den then below
    else if 2 * (value - below * den) = den ∧ below % 2 = 0 then below
    else below + 1
  let other := if nearer = below then below + 1 else below
  if inside nearer then some nearer else if inside other then some other else none

/-- The shortest decimal, from the coarsest grid that any double needs to the finest. -/
def Binary.shortest (b : Binary) : Decimal :=
  let grids := (List.range 660).map fun (i : Nat) => (310 : Int) - i
  let hit := grids.findSome? fun k => (b.onGrid? k).bind fun d =>
    if d = 0 then none else some (Decimal.mk d k)
  hit.getD ⟨0, 0⟩

end PushQueue.Json
