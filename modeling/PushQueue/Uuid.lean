import PushQueue.Text.Fields
import PushQueue.Text.Numeral

/-!
Universally unique identifiers: 128 bits, written as 32 lower case hexadecimal digits, bare or in
hyphenated groups. A reader takes both forms in either case, and the hyphenated one also in braces
or after the URN scheme.
-/

namespace PushQueue

structure Uuid where
  bits : BitVec 128
deriving DecidableEq, Inhabited

namespace Uuid

open Text

/-- The 32 digits, the most significant first. -/
def digits (u : Uuid) : List Char := padded 16 32 u.bits.toNat

/-- The groups of the hyphenated form, of 8, 4, 4, 4 and 12 digits. -/
def groups (digits : List Char) : List (List Char) :=
  [digits.take 8, (digits.drop 8).take 4, (digits.drop 12).take 4, (digits.drop 16).take 4,
    digits.drop 20]

def simple (u : Uuid) : String := String.ofList u.digits

def hyphenated (u : Uuid) : String := String.ofList (joinFields '-' (groups u.digits))

def ofDigits? (cs : List Char) : Option Uuid :=
  if cs.length = 32 then (readHex? cs).map fun n => ⟨BitVec.ofNat 128 n⟩ else none

def ofHyphenated? (cs : List Char) : Option Uuid :=
  let parts := fields '-' cs
  if parts.map List.length = [8, 4, 4, 4, 12] then ofDigits? parts.flatten else none

def unbrace? : List Char → Option (List Char)
  | '\x7b' :: cs => if cs.getLast? = some '\x7d' then some cs.dropLast else none
  | _ => none

def urnScheme : List Char := "urn:uuid:".toList

/-- The text after the URN scheme, which is written in either case. -/
def unscheme? (cs : List Char) : Option (List Char) :=
  if (cs.take urnScheme.length).map Char.toLower = urnScheme then some (cs.drop urnScheme.length)
  else none

def ofChars? (cs : List Char) : Option Uuid :=
  (ofDigits? cs).orElse fun _ => (ofHyphenated? cs).orElse fun _ =>
    ((unbrace? cs).bind ofHyphenated?).orElse fun _ => (unscheme? cs).bind ofHyphenated?

instance : Ord Uuid := ⟨compareOn fun u => u.bits.toNat⟩

instance : Std.TransOrd Uuid :=
  inferInstanceAs (Std.TransCmp (compareOn fun u : Uuid => u.bits.toNat))

instance : Std.LawfulEqOrd Uuid where
  compare_self {_} := Std.ReflCmp.compare_self
  eq_of_compare {u v} h := by
    have hn : compare u.bits.toNat v.bits.toNat = .eq := h
    have : u.bits = v.bits := BitVec.eq_of_toNat_eq (Std.LawfulEqCmp.eq_of_compare hn)
    cases u; cases v; simp_all

end Uuid

end PushQueue
