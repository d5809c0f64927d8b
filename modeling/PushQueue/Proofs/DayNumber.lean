import Mathlib.Tactic.IntervalCases
import PushQueue.Proofs.Calendar

/-!
Days counted from the first of January 1970. No two dates have one number, `Date.ofDays` gives back
the date of a number, and a stride is fourteen days.
-/

namespace PushQueue

namespace Month

def startOfYear (year : Int) : Int :=
  365 * year + (year + 3) / 4 - (year + 99) / 100 + (year + 399) / 400

theorem startOfYear_succ (year : Int) :
    startOfYear (year + 1) = startOfYear year + if isLeapYear year then 366 else 365 := by
  unfold startOfYear isLeapYear
  split <;> rename_i hleap <;> simp at hleap <;> omega

def daysBefore : List Int := [0, 31, 59, 90, 120, 151, 181, 212, 243, 273, 304, 334]

def start (m : Month) : Int :=
  startOfYear m.year + daysBefore.getD (m.number - 1) 0 +
    if 2 < m.number ∧ isLeapYear m.year then 1 else 0

theorem start_january (year : Int) (h : 1 ≤ 1 ∧ 1 ≤ 12) :
    start ⟨year, 1, h⟩ = startOfYear year := by
  simp [start, daysBefore]

theorem start_next (m : Month) : m.next.start = m.start + m.days := by
  obtain ⟨year, number, hnumber⟩ := m
  obtain ⟨hlow, hhigh⟩ := hnumber
  by_cases hleap : isLeapYear year = true
  · interval_cases number <;>
      simp [next, start, daysBefore, days, startOfYear_succ, hleap] <;> omega
  · interval_cases number <;>
      simp [next, start, daysBefore, days, startOfYear_succ, hleap] <;> omega

@[simp] theorem next_previous (m : Month) : m.previous.next = m := by
  simp [← index_inj]

theorem start_previous (m : Month) : m.previous.start + m.previous.days = m.start := by
  rw [← start_next, next_previous]

theorem start_add_days_le {m n : Month} (h : m < n) : m.start + m.days ≤ n.start := by
  obtain ⟨k, hk⟩ : ∃ k : Nat, n.index = m.index + 1 + k := ⟨(n.index - m.index - 1).toNat, by
    rw [lt_iff] at h
    omega⟩
  induction k generalizing m with
  | zero =>
    obtain rfl : m.next = n := by
      rw [← index_inj, index_next]
      omega
    rw [start_next]
  | succ k ih =>
    have hlt : m.next < n := by
      rw [lt_iff, index_next]
      omega
    have hle := ih hlt (by rw [index_next]; omega)
    rw [start_next] at hle
    omega

end Month

namespace Date

/-- Days from the first of January 1970. -/
def dayNumber (d : Date) : Int := d.month.start + d.day - 1 - daysTo1970

theorem dayNumber_forward (d : Date) : d.forward.dayNumber = d.dayNumber + stride := by
  have hnext := d.month.start_next
  unfold forward dayNumber
  split <;> simp only <;> omega

theorem dayNumber_backward (d : Date) : d.backward.dayNumber = d.dayNumber - stride := by
  have hprevious := d.month.start_previous
  have hdays := d.month.previous.le_days
  have hstride : stride = 14 := rfl
  unfold backward dayNumber
  split <;> simp only <;> omega

theorem month_le_of_dayNumber_le {d d' : Date} (h : d.dayNumber ≤ d'.dayNumber) :
    d.month ≤ d'.month := by
  rw [← Month.not_lt]
  intro hlt
  have hle := Month.start_add_days_le hlt
  have := d.in_month
  have := d'.in_month
  unfold dayNumber at h
  omega

theorem dayNumber_injective {d d' : Date} (h : d.dayNumber = d'.dayNumber) : d = d' := by
  have hmonth : d.month = d'.month := Month.index_inj.1 (Int.le_antisymm
    (month_le_of_dayNumber_le (Int.le_of_eq h)) (month_le_of_dayNumber_le (Int.le_of_eq h.symm)))
  obtain ⟨month, day, hday⟩ := d
  obtain ⟨month', day', hday'⟩ := d'
  obtain rfl : month = month' := hmonth
  obtain rfl : day = day' := by
    simp only [dayNumber] at h
    omega
  rfl

section OfDays

theorem startOfYear_eq (cycle : Int) (year : Nat) :
    Month.startOfYear (cycle * 400 + year) = cycle * 146097 + yearStart year := by
  unfold Month.startOfYear yearStart
  omega

/-- The first of a year is at most two years away from where the mean length of a year puts it. -/
theorem yearOfCycle_spec {n : Nat} (h : n < 146097) :
    yearStart (yearOfCycle n) ≤ n ∧ n < yearStart (yearOfCycle n + 1) := by
  unfold yearOfCycle
  simp only
  generalize hguess : n * 400 / 146097 = guess
  have hlow : 146097 * guess ≤ n * 400 := by omega
  have hhigh : n * 400 < 146097 * guess + 146097 := by omega
  split
  next hbefore =>
    obtain ⟨year, rfl⟩ : ∃ year, guess = year + 1 := Nat.exists_eq_succ_of_ne_zero (by
      rintro rfl
      exact Nat.not_lt_zero n hbefore)
    rw [Nat.add_sub_cancel]
    unfold yearStart at *
    omega
  next hafter =>
    split
    next hlate =>
      unfold yearStart at *
      omega
    next hearly => omega

theorem dayNumber_ofDayFrom (m : Month) (n : Nat)
    (h : m.start + n < Month.startOfYear (m.year + 1)) :
    (ofDayFrom m n).dayNumber = m.start + n - daysTo1970 := by
  induction m, n using ofDayFrom.induct with
  | case1 m n hfits =>
    rw [ofDayFrom, dif_pos hfits]
    simp only [dayNumber]
    omega
  | case2 m n hfits hlast =>
    have hnext : m.next.start = Month.startOfYear (m.year + 1) := by
      unfold Month.next
      rw [dif_pos hlast, Month.start_january]
    rw [Month.start_next] at hnext
    omega
  | case3 m n hfits hlast ih =>
    have hyear : m.next.year = m.year := by
      unfold Month.next
      rw [dif_neg hlast]
    rw [ofDayFrom, dif_neg hfits, if_neg hlast, ih, Month.start_next]
    · omega
    · rw [Month.start_next, hyear]
      omega

theorem dayNumber_ofDays (n : Int) : (ofDays n).dayNumber = n := by
  have hcycle : ((n + daysTo1970) % 146097).toNat < 146097 := by omega
  obtain ⟨hlow, hhigh⟩ := yearOfCycle_spec hcycle
  unfold ofDays
  simp only
  generalize hyear : yearOfCycle ((n + daysTo1970) % 146097).toNat = year at hlow hhigh
  have hstart := startOfYear_eq ((n + daysTo1970) / 146097) year
  have hend := startOfYear_eq ((n + daysTo1970) / 146097) (year + 1)
  rw [Int.natCast_succ, ← Int.add_assoc] at hend
  rw [dayNumber_ofDayFrom, Month.start_january]
  · omega
  · simp only [Month.start_january]
    omega

@[simp] theorem ofDays_dayNumber (d : Date) : ofDays d.dayNumber = d :=
  dayNumber_injective (dayNumber_ofDays _)

end OfDays

def shift (d : Date) (days : Int) : Date := ofDays (d.dayNumber + days)

@[simp] theorem dayNumber_shift (d : Date) (days : Int) :
    (d.shift days).dayNumber = d.dayNumber + days := dayNumber_ofDays _

@[simp] theorem shift_zero (d : Date) : d.shift 0 = d := by
  simp [shift]

@[simp] theorem shift_shift (d : Date) (a b : Int) : (d.shift a).shift b = d.shift (a + b) := by
  simp [shift, dayNumber_ofDays, Int.add_assoc]

theorem forward_eq_shift (d : Date) : d.forward = d.shift 14 :=
  dayNumber_injective (by simp [dayNumber_forward, stride])

theorem backward_eq_shift (d : Date) : d.backward = d.shift (-14) :=
  dayNumber_injective (by simp [dayNumber_backward, stride, Int.sub_eq_add_neg])

end Date

end PushQueue
