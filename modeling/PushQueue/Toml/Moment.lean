import PushQueue.Calendar.Date
import PushQueue.Toml.Value

/-!
TOML dates and times: a date, a time of day, or both with an offset from universal time if one is
given. The parts are checked for their ranges, the day for its month.
-/

namespace PushQueue.Toml

open Text

/-- A number of exactly `width` digits between two bounds. -/
def readField (width low high : Nat) (cs : List Char) : Option (Nat × List Char) :=
  if (cs.take width).length = width then
    (readNat? (cs.take width)).bind fun n =>
      if low ≤ n ∧ n ≤ high then some (n, cs.drop width) else none
  else none

def skip? (c : Char) : List Char → Option (List Char)
  | d :: rest => if c = d then some rest else none
  | [] => none

def skipDate? (cs : List Char) : Option (List Char) := do
  let (year, cs) ← readField 4 0 9999 cs
  let cs ← skip? '-' cs
  let (month, cs) ← readField 2 1 12 cs
  let cs ← skip? '-' cs
  let (day, cs) ← readField 2 1 31 cs
  (Date.ofParts? year month day).map fun _ => cs

def skipFraction : List Char → List Char
  | '.' :: c :: rest => if c.isDigit then rest.dropWhile Char.isDigit else '.' :: c :: rest
  | cs => cs

def skipTime? (cs : List Char) : Option (List Char) := do
  let (_, cs) ← readField 2 0 23 cs
  let cs ← skip? ':' cs
  let (_, cs) ← readField 2 0 59 cs
  let cs ← skip? ':' cs
  let (_, cs) ← readField 2 0 60 cs
  some (skipFraction cs)

/-- Past an offset, which may be absent. -/
def skipOffset? : List Char → Option (List Char)
  | c :: rest =>
    if c = 'Z' ∨ c = 'z' then some rest
    else if c = '+' ∨ c = '-' then do
      let (_, cs) ← readField 2 0 23 rest
      let cs ← skip? ':' cs
      let (_, cs) ← readField 2 0 59 cs
      some cs
    else some (c :: rest)
  | [] => some []

/-- Past a time after a date, which may be absent. -/
def skipTimeOfDate? : List Char → Option (List Char)
  | c :: rest =>
    if c = 'T' ∨ c = 't' ∨ c = ' ' then
      match skipTime? rest with
      | some after => skipOffset? after
      | none => some (c :: rest)
    else some (c :: rest)
  | [] => some []

def skipMoment? (cs : List Char) : Option (List Char) :=
  match skipDate? cs with
  | some rest => skipTimeOfDate? rest
  | none => skipTime? cs

def readMoment (cs : List Char) : Option (Value × List Char) :=
  (skipMoment? cs).map fun rest =>
    (.moment (String.ofList (cs.take (cs.length - rest.length))), rest)

end PushQueue.Toml
