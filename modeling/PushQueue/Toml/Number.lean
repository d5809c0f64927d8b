import PushQueue.Text.Fields
import PushQueue.Text.Numeral
import PushQueue.Toml.Value

/-!
TOML numbers. Digits may be divided by single underscores; decimal numerals have no leading zeros;
integers are those of 64 signed bits; a number too large for a double is refused.
-/

namespace PushQueue.Toml

open Text

/-- Digits, without the single underscores that may divide them, and the rest. -/
def readDigits (digit : Char → Bool) : List Char → Option (List Char × List Char)
  | [] => none
  | c :: rest =>
    if !digit c then none
    else
      match rest with
      | '_' :: after => (readDigits digit after).map fun r => (c :: r.1, r.2)
      | d :: after =>
        if digit d then (readDigits digit (d :: after)).map fun r => (c :: r.1, r.2)
        else some ([c], d :: after)
      | [] => some ([c], [])

/-- A decimal numeral without leading zeros. -/
def readWhole : List Char → Option (List Char × List Char)
  | '0' :: rest => some (['0'], rest)
  | cs => readDigits Char.isDigit cs

/-- A sign, if there is one: whether it is a minus. -/
def readSign : List Char → Bool × List Char
  | '+' :: rest => (false, rest)
  | '-' :: rest => (true, rest)
  | cs => (false, cs)

/-- The number written in base `base`, if it fits 64 signed bits. -/
def integer? (base : Nat) (negative : Bool) (digits : List Char) : Option Value :=
  (digits.foldlM (fun n c => (hexValue? c).map fun d => base * n + d) 0).bind fun (n : Nat) =>
    let value : Int := if negative then -n else n
    if -0x8000000000000000 ≤ value ∧ value < 0x8000000000000000 then some (.integer value) else none

/-- The largest and the least number of places at which a double can start. -/
def maxPlaces : Int := 310
def minPlaces : Int := -330

/-- The double nearest to a significand times a power of ten. -/
def nearest (significand : Nat) (exponent : Int) : Float :=
  let places := (Nat.toDigits 10 significand).length + exponent
  if significand = 0 ∨ places < minPlaces then 0
  else if maxPlaces < places then Float.ofScientific 1 false maxPlaces.toNat
  else Float.ofScientific significand (exponent < 0) exponent.natAbs

/-- A float; only one that overflows downward is let through as an infinity. -/
def float? (negative : Bool) (whole fraction : List Char) (exponent : Int) : Option Value :=
  (readNat? (whole ++ fraction)).bind fun significand =>
    let f := nearest significand (exponent - fraction.length)
    if negative then some (.float (-f)) else if f.isInf then none else some (.float f)

def readExponent (cs : List Char) : Option (Int × List Char) :=
  let (negative, cs) := readSign cs
  (readDigits Char.isDigit cs).bind fun (digits, rest) =>
    (readNat? digits).map fun n => (if negative then -(n : Int) else n, rest)

def isExponentMark (c : Char) : Bool := c = 'e' || c = 'E'

def finishFloat (negative : Bool) (whole fraction : List Char) (cs : List Char) :
    Option (Value × List Char) :=
  match cs with
  | c :: rest =>
    if isExponentMark c then
      (readExponent rest).bind fun (exponent, rest) =>
        (float? negative whole fraction exponent).map fun v => (v, rest)
    else (float? negative whole fraction 0).map fun v => (v, cs)
  | [] => (float? negative whole fraction 0).map fun v => (v, cs)

def readDecimal (negative : Bool) (cs : List Char) : Option (Value × List Char) :=
  (readWhole cs).bind fun (whole, rest) =>
    match rest with
    | '.' :: after =>
      (readDigits Char.isDigit after).bind fun (fraction, rest) =>
        finishFloat negative whole fraction rest
    | c :: _ =>
      if isExponentMark c then finishFloat negative whole [] rest
      else (integer? 10 negative whole).map fun v => (v, rest)
    | [] => (integer? 10 negative whole).map fun v => (v, rest)

def readBased (base : Nat) (cs : List Char) : Option (Value × List Char) :=
  (readDigits (fun c => (hexValue? c).any (· < base)) cs).bind fun (digits, rest) =>
    (integer? base false digits).map fun v => (v, rest)

def infinity : Float := 1 / 0

/-- Not a number, and the infinities, by name. -/
def readNamed (negative : Bool) (cs : List Char) : Option (Value × List Char) :=
  let signed (f : Float) : Value := .float (if negative then -f else f)
  ((after? ['i', 'n', 'f'] cs).map fun rest => (signed infinity, rest)).orElse fun _ =>
    (after? ['n', 'a', 'n'] cs).map fun rest => (signed (0 / 0), rest)

def readNumber : List Char → Option (Value × List Char)
  | '0' :: 'x' :: rest => readBased 16 rest
  | '0' :: 'o' :: rest => readBased 8 rest
  | '0' :: 'b' :: rest => readBased 2 rest
  | cs =>
    let (negative, cs) := readSign cs
    (readNamed negative cs).orElse fun _ => readDecimal negative cs

end PushQueue.Toml
