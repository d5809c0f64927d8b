import PushQueue.Text.Numeral

/-! Months of the proleptic Gregorian calendar, in their order. -/

namespace PushQueue

def isLeapYear (year : Int) : Bool := year % 4 = 0 && (year % 100 ≠ 0 || year % 400 = 0)

structure Month where
  year : Int
  number : Nat
  in_year : 1 ≤ number ∧ number ≤ 12
deriving DecidableEq

namespace Month

/-- Months counted from the first of the year zero. -/
def index (m : Month) : Int := 12 * m.year + (m.number - 1 : Nat)

theorem index_inj {m n : Month} : m.index = n.index ↔ m = n := by
  refine ⟨fun h => ?_, fun h => h ▸ rfl⟩
  obtain ⟨y, k, hk⟩ := m
  obtain ⟨z, l, hl⟩ := n
  simp only [index] at h
  obtain rfl : y = z := by omega
  obtain rfl : k = l := by omega
  rfl

instance : LT Month := ⟨fun m n => m.index < n.index⟩
instance : LE Month := ⟨fun m n => m.index ≤ n.index⟩
instance (m n : Month) : Decidable (m < n) := inferInstanceAs (Decidable (m.index < n.index))
instance (m n : Month) : Decidable (m ≤ n) := inferInstanceAs (Decidable (m.index ≤ n.index))

def days (m : Month) : Nat :=
  if m.number = 2 then (if isLeapYear m.year then 29 else 28)
  else if m.number = 4 ∨ m.number = 6 ∨ m.number = 9 ∨ m.number = 11 then 30
  else 31

theorem days_le (m : Month) : m.days ≤ 31 := by
  unfold days; split <;> split <;> omega

theorem le_days (m : Month) : 28 ≤ m.days := by
  unfold days; split <;> split <;> omega

def next (m : Month) : Month :=
  if h : m.number = 12 then ⟨m.year + 1, 1, by omega⟩
  else ⟨m.year, m.number + 1, by have := m.in_year; omega⟩

def previous (m : Month) : Month :=
  if h : m.number = 1 then ⟨m.year - 1, 12, by omega⟩
  else ⟨m.year, m.number - 1, by have := m.in_year; omega⟩

@[simp] theorem index_next (m : Month) : m.next.index = m.index + 1 := by
  have := m.in_year
  unfold next index; split <;> (simp only; omega)

@[simp] theorem index_previous (m : Month) : m.previous.index = m.index - 1 := by
  have := m.in_year
  unfold previous index; split <;> (simp only; omega)

theorem number_next_ne (m : Month) : m.next.number ≠ m.number := by
  have := m.in_year
  unfold next; split <;> (simp only; omega)

theorem number_previous_ne (m : Month) : m.previous.number ≠ m.number := by
  have := m.in_year
  unfold previous; split <;> (simp only; omega)

/-- The year, and the number of the month in two digits, with `separator` between them. -/
def digits (separator : List Char) (m : Month) : List Char :=
  (toString m.year).toList ++ separator ++ Text.padded 10 2 m.number

def text (m : Month) : String := String.ofList (m.digits ['-'])

end Month

end PushQueue
