/-!
Numerals: digits in a fixed field, and readers of unsigned, signed and hexadecimal numbers.
A fixed field makes the order of the texts the order of the numbers.
-/

namespace PushQueue.Text

/-- `n` in base `base`, filled with zeros on the left up to `width` digits. -/
def padded (base width n : Nat) : List Char := (Nat.toDigits base n).leftpad width '0'

def readNat? (cs : List Char) : Option Nat :=
  if cs ≠ [] ∧ cs.all Char.isDigit then some (Nat.ofDigitChars 10 cs 0) else none

/-- A decimal numeral that may carry a plus sign. -/
def readUnsigned? : List Char → Option Nat
  | '+' :: cs => readNat? cs
  | cs => readNat? cs

def readInt? : List Char → Option Int
  | '-' :: cs => (readNat? cs).map fun n => -(n : Int)
  | '+' :: cs => (readNat? cs).map Int.ofNat
  | cs => (readNat? cs).map Int.ofNat

def hexValue? (c : Char) : Option Nat :=
  if c.isDigit then some (c.toNat - '0'.toNat)
  else if 'a' ≤ c ∧ c ≤ 'f' then some (c.toNat - 'a'.toNat + 10)
  else if 'A' ≤ c ∧ c ≤ 'F' then some (c.toNat - 'A'.toNat + 10)
  else none

/-- The number written by hexadecimal digits, the most significant first. -/
def readHex? (cs : List Char) : Option Nat :=
  cs.foldlM (fun n c => (hexValue? c).map fun d => 16 * n + d) 0

theorem length_padded {base width n : Nat} (h : (Nat.toDigits base n).length ≤ width) :
    (padded base width n).length = width := by
  simp [padded, List.leftpad]; omega

theorem isDigit_of_mem_padded {width n : Nat} {c : Char} (h : c ∈ padded 10 width n) :
    c.isDigit := by
  simp only [padded, List.leftpad, List.mem_append, List.mem_replicate] at h
  rcases h with ⟨_, rfl⟩ | h
  · rfl
  · exact Nat.isDigit_of_mem_toDigits (by decide) (by decide) h

theorem readNat?_padded (width n : Nat) : readNat? (padded 10 width n) = some n := by
  have hne : padded 10 width n ≠ [] := by simp [padded, List.leftpad]
  have hall : (padded 10 width n).all Char.isDigit = true :=
    List.all_eq_true.2 fun _ h => isDigit_of_mem_padded h
  rw [readNat?, if_pos ⟨hne, hall⟩]
  simp [padded, List.leftpad, Nat.ofDigitChars_append, Nat.ofDigitChars_replicate_zero,
    Nat.ofDigitChars_ten_toDigits]

end PushQueue.Text
