import PushQueue.Calendar.Month

/-!
Dates, and the walk from a date into a month some months away. The walk goes in strides of a fixed
number of days and stops at the first date in the next month, once for every month of the distance.
-/

namespace PushQueue

structure Date where
  month : Month
  day : Nat
  in_month : 1 ≤ day ∧ day ≤ month.days
deriving DecidableEq

namespace Date

def year (d : Date) : Int := d.month.year

def ofParts? (year month day : Int) : Option Date :=
  if h : 1 ≤ month.toNat ∧ month.toNat ≤ 12 then
    let m : Month := ⟨year, month.toNat, h⟩
    if k : 1 ≤ day.toNat ∧ day.toNat ≤ m.days then some ⟨m, day.toNat, k⟩ else none
  else none

/-- The days of one stride; fewer than any month has. -/
def stride : Nat := 14

def forward (d : Date) : Date :=
  if h : d.day + stride ≤ d.month.days then ⟨d.month, d.day + stride, by have := d.in_month; omega⟩
  else
    ⟨d.month.next, d.day + stride - d.month.days, by
      have := d.in_month; have := d.month.next.le_days
      simp only [stride] at h ⊢; omega⟩

def backward (d : Date) : Date :=
  if h : stride < d.day then ⟨d.month, d.day - stride, by have := d.in_month; omega⟩
  else
    ⟨d.month.previous, d.day + d.month.previous.days - stride, by
      have := d.in_month; have := d.month.previous.le_days
      simp only [stride] at h ⊢; omega⟩

/-- A stride is too short to end in the month of the same number of another year. -/
theorem month_forward_eq {d : Date} (h : d.forward.month.number = d.month.number) :
    d.forward.month = d.month := by
  unfold forward at h ⊢
  split at h <;> rename_i hfit
  · rw [dif_pos hfit]
  · exact absurd h d.month.number_next_ne

theorem month_backward_eq {d : Date} (h : d.backward.month.number = d.month.number) :
    d.backward.month = d.month := by
  unfold backward at h ⊢
  split at h <;> rename_i hfit
  · rw [dif_pos hfit]
  · exact absurd h d.month.number_previous_ne

theorem day_forward {d : Date} (h : d.forward.month = d.month) :
    d.forward.day = d.day + stride := by
  unfold forward at h ⊢
  split at h <;> rename_i hfit
  · simp [dif_pos hfit]
  · exact absurd (congrArg Month.index h) (by simp only [Month.index_next]; omega)

theorem day_backward {d : Date} (h : d.backward.month = d.month) :
    d.backward.day + stride = d.day := by
  unfold backward at h ⊢
  split at h <;> rename_i hfit
  · simp only [dif_pos hfit]; omega
  · exact absurd (congrArg Month.index h) (by simp only [Month.index_previous]; omega)

/-- Walk forward to the first date whose month has another number. -/
def enterNext (d : Date) : Date :=
  if d.forward.month.number = d.month.number then d.forward.enterNext else d.forward
termination_by d.month.days - d.day
decreasing_by
  rename_i h
  have h := month_forward_eq h
  have := d.forward.in_month
  rw [h, day_forward h] at this ⊢
  simp only [stride] at this ⊢; omega

/-- Walk backward to the first date whose month has another number. -/
def enterPrevious (d : Date) : Date :=
  if d.backward.month.number = d.month.number then d.backward.enterPrevious else d.backward
termination_by d.day
decreasing_by
  rename_i h
  have := day_backward (month_backward_eq h)
  simp only [stride] at this; omega

/-- The date reached by walking `months` months, backward if negative. -/
def walk (d : Date) (months : Int) : Date :=
  if months < 0 then Nat.repeat enterPrevious months.natAbs d
  else Nat.repeat enterNext months.natAbs d

/-- Days from the start of the year zero to the start of a year of the same cycle of 400. -/
def yearStart (year : Nat) : Nat :=
  365 * year + (year + 3) / 4 - (year + 99) / 100 + (year + 399) / 400

/-- The year of a cycle that holds its day `n`. -/
def yearOfCycle (n : Nat) : Nat :=
  let guess := n * 400 / 146097
  if n < yearStart guess then guess - 1
  else if yearStart (guess + 1) ≤ n then guess + 1
  else guess

/-- The date `n` days after the first of a month; it stays in the year. -/
def ofDayFrom (m : Month) (n : Nat) : Date :=
  if h : n < m.days then ⟨m, n + 1, by omega⟩
  else if m.number = 12 then ⟨m, m.days, by have := m.le_days; omega⟩
  else ofDayFrom m.next (n - m.days)
termination_by n
decreasing_by have := m.le_days; omega

/-- Days from the start of the year zero to the start of 1970. -/
def daysTo1970 : Int := 719528

/-- The date `n` days after the first of January 1970. -/
def ofDays (n : Int) : Date :=
  let days := n + daysTo1970
  let inCycle := (days % 146097).toNat
  let year := yearOfCycle inCycle
  ofDayFrom ⟨days / 146097 * 400 + year, 1, by decide⟩ (inCycle - yearStart year)

end Date

end PushQueue
