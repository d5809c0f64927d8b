import PushQueue.Json.Value
import PushQueue.Text.Fields
import PushQueue.Text.Numeral

/-!
Reading JSON text. A number keeps as many leading digits as 64 bits hold and is scaled by one power
of ten; values nest at most 127 deep; an unpaired surrogate escape is refused.
-/

namespace PushQueue.Json

open Text

/-- The digits that fit 64 bits after `significand`, and how many are left over. -/
def absorb : Nat → List Char → Nat × Nat
  | significand, [] => (significand, 0)
  | significand, d :: ds =>
    let next := 10 * significand + (d.toNat - '0'.toNat)
    if next < UInt64.size then absorb next ds else (significand, ds.length + 1)

def powerOfTen (n : Nat) : Float := Float.ofScientific 1 false n

/-- The largest power of ten that is a double. -/
def maxPower : Nat := 308

def divideByPower (f : Float) (n : Nat) : Float :=
  if n ≤ maxPower then f / powerOfTen n
  else if f == 0 then f
  else divideByPower (f / powerOfTen maxPower) (n - maxPower)
termination_by n
decreasing_by simp [maxPower]; omega

/-- The significand times a power of ten, unless it is too large for a double. -/
def scale (significand : Nat) (exponent : Int) : Option Float :=
  let f := (UInt64.ofNat significand).toFloat
  if exponent < 0 then some (divideByPower f exponent.natAbs)
  else if exponent.toNat ≤ maxPower then
    let r := f * powerOfTen exponent.toNat
    if r.isInf then none else some r
  else if f == 0 then some f
  else none

def signed (negative : Bool) (f : Float) : Json := .number (if negative then -f else f)

def maxExponent : Nat := 2147483647

def readExponent (negative : Bool) (significand : Nat) (exponent : Int) (cs : List Char) :
    Option (Json × List Char) :=
  match cs with
  | c :: rest =>
    if c = 'e' ∨ c = 'E' then
      let (down, rest) :=
        match rest with
        | '+' :: r => (false, r)
        | '-' :: r => (true, r)
        | r => (false, r)
      let digits := rest.takeWhile Char.isDigit
      let after := rest.dropWhile Char.isDigit
      (readNat? digits).bind fun n =>
        if n > maxExponent then
          if significand ≠ 0 ∧ !down then none else some (signed negative 0, after)
        else
          let total := if down then exponent - n else exponent + n
          (scale significand total).map fun f => (signed negative f, after)
    else (scale significand exponent).map fun f => (signed negative f, cs)
  | [] => (scale significand exponent).map fun f => (signed negative f, cs)

def readFraction (negative : Bool) (significand dropped : Nat) (cs : List Char) :
    Option (Json × List Char) :=
  match cs with
  | '.' :: rest =>
    let digits := rest.takeWhile Char.isDigit
    if digits.isEmpty then none
    else
      let (longer, left) := absorb significand digits
      readExponent negative longer (dropped - (digits.length - left : Nat) : Int)
        (rest.dropWhile Char.isDigit)
  | c :: _ =>
    if c = 'e' ∨ c = 'E' ∨ dropped ≠ 0 then readExponent negative significand dropped cs
    else some (integral, cs)
  | [] => if dropped ≠ 0 then readExponent negative significand dropped cs else some (integral, cs)
where
  /-- Negative zero and integers below 64 signed bits are doubles. -/
  integral : Json :=
    if !negative then .integer significand
    else if significand = 0 ∨ significand > Nat.pow 2 63 then
      .number (-(UInt64.ofNat significand).toFloat)
    else .integer (-significand)

def readNumber (cs : List Char) : Option (Json × List Char) :=
  let (negative, cs) :=
    match cs with
    | '-' :: rest => (true, rest)
    | _ => (false, cs)
  let digits := cs.takeWhile Char.isDigit
  if digits.isEmpty ∨ (digits.head? = some '0' ∧ digits.length > 1) then none
  else
    let (significand, dropped) := absorb 0 digits
    readFraction negative significand dropped (cs.dropWhile Char.isDigit)

def readCodeUnit? (a b c d : Char) : Option Nat := readHex? [a, b, c, d]

/-- The rest of a string after its opening quote; `done` holds what is read so far, backwards. -/
def readString (done : List Char) : List Char → Option (String × List Char)
  | '\x22' :: rest => some (String.ofList done.reverse, rest)
  | '\\' :: 'u' :: a :: b :: c :: d :: rest =>
    match readCodeUnit? a b c d with
    | none => none
    | some unit =>
      if unit < 0xD800 ∨ 0xDFFF < unit then readString (Char.ofNat unit :: done) rest
      else if 0xDC00 ≤ unit then none
      else
        match rest with
        | '\\' :: 'u' :: e :: f :: g :: h :: rest =>
          match readCodeUnit? e f g h with
          | some low =>
            if 0xDC00 ≤ low ∧ low ≤ 0xDFFF then
              let code := 0x10000 + (unit - 0xD800) * 0x400 + (low - 0xDC00)
              readString (Char.ofNat code :: done) rest
            else none
          | none => none
        | _ => none
  | '\\' :: c :: rest =>
    match escaped? c with
    | some e => readString (e :: done) rest
    | none => none
  | c :: rest => if c.toNat < 0x20 then none else readString (c :: done) rest
  | [] => none
where
  escaped? (c : Char) : Option Char :=
    if c = '\x22' ∨ c = '\\' ∨ c = '/' then some c
    else if c = 'b' then some '\x08'
    else if c = 'f' then some '\x0c'
    else if c = 'n' then some '\n'
    else if c = 'r' then some '\r'
    else if c = 't' then some '\t'
    else none

def isSpace (c : Char) : Bool := c = ' ' || c = '\n' || c = '\t' || c = '\r'

def skipSpace (cs : List Char) : List Char := cs.dropWhile isSpace

def readWord (word : String) (value : Json) (cs : List Char) : Option (Json × List Char) :=
  (after? word.toList cs).map fun rest => (value, rest)

mutual

/-- A value; `depth` levels of nesting remain. -/
def readValue (fuel depth : Nat) (cs : List Char) : Option (Json × List Char) :=
  match fuel with
  | 0 => none
  | fuel + 1 =>
    match skipSpace cs with
    | '\x22' :: rest => (readString [] rest).map fun r => (.string r.1, r.2)
    | '[' :: rest =>
      if depth ≤ 1 then none
      else
        match skipSpace rest with
        | ']' :: after => some (.array [], after)
        | rest => readItems fuel (depth - 1) [] rest
    | '\x7b' :: rest =>
      if depth ≤ 1 then none
      else
        match skipSpace rest with
        | '\x7d' :: after => some (.object [], after)
        | rest => readMembers fuel (depth - 1) [] rest
    | cs =>
      (readWord "null" .null cs).orElse fun _ =>
      (readWord "true" (.bool true) cs).orElse fun _ =>
      (readWord "false" (.bool false) cs).orElse fun _ => readNumber cs

/-- The items of an array; `done` holds those read so far, backwards. -/
def readItems (fuel depth : Nat) (done : List Json) (cs : List Char) :
    Option (Json × List Char) :=
  match fuel with
  | 0 => none
  | fuel + 1 =>
    match readValue fuel depth cs with
    | none => none
    | some (item, rest) =>
      match skipSpace rest with
      | ',' :: rest => readItems fuel depth (item :: done) rest
      | ']' :: rest => some (.array (item :: done).reverse, rest)
      | _ => none

/-- The members of an object; `done` holds those read so far, backwards. -/
def readMembers (fuel depth : Nat) (done : List (String × Json)) (cs : List Char) :
    Option (Json × List Char) :=
  match fuel with
  | 0 => none
  | fuel + 1 =>
    match skipSpace cs with
    | '\x22' :: rest =>
      match readString [] rest with
      | none => none
      | some (name, rest) =>
        match skipSpace rest with
        | ':' :: rest =>
          match readValue fuel depth rest with
          | none => none
          | some (value, rest) =>
            match skipSpace rest with
            | ',' :: rest => readMembers fuel depth ((name, value) :: done) rest
            | '\x7d' :: rest => some (ofMembers ((name, value) :: done).reverse, rest)
            | _ => none
        | _ => none
    | _ => none

end

def maxDepth : Nat := 128

def parse? (s : String) : Option Json :=
  let cs := s.toList
  match readValue (2 * cs.length + 1) maxDepth cs with
  | some (value, rest) => if (skipSpace rest).isEmpty then some value else none
  | none => none

end PushQueue.Json
