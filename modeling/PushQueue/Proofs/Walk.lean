import PushQueue.Proofs.DayNumber
import PushQueue.Proofs.Rotation

/-!
Where a walk ends. It goes in strides of fourteen days and stops at the first of them that is in the
month at its distance, after at most three strides for every month. The retained months are
therefore consecutive, and the table that is made ahead of time is the one of the month after the
current one.
-/

namespace PushQueue

namespace Date

theorem exists_enterNext (d : Date) : ∃ n : Nat,
    d.enterNext = d.shift (14 * (n + 1)) ∧ (d.shift (14 * n)).month = d.month := by
  induction d using enterNext.induct with
  | case1 d hsame ih =>
    obtain ⟨n, harrives, hstays⟩ := ih
    refine ⟨n + 1, ?_, ?_⟩
    · rw [enterNext, if_pos hsame, harrives, forward_eq_shift, shift_shift]
      congr 1
      omega
    · rw [← month_forward_eq hsame, ← hstays, forward_eq_shift, shift_shift]
      congr 2
      omega
  | case2 d hother =>
    refine ⟨0, ?_, by simp⟩
    rw [enterNext, if_neg hother, forward_eq_shift]
    rfl

theorem exists_enterPrevious (d : Date) : ∃ n : Nat,
    d.enterPrevious = d.shift (-14 * (n + 1)) ∧ (d.shift (-14 * n)).month = d.month := by
  induction d using enterPrevious.induct with
  | case1 d hsame ih =>
    obtain ⟨n, harrives, hstays⟩ := ih
    refine ⟨n + 1, ?_, ?_⟩
    · rw [enterPrevious, if_pos hsame, harrives, backward_eq_shift, shift_shift]
      congr 1
      omega
    · rw [← month_backward_eq hsame, ← hstays, backward_eq_shift, shift_shift]
      congr 2
      omega
  | case2 d hother =>
    refine ⟨0, ?_, by simp⟩
    rw [enterPrevious, if_neg hother, backward_eq_shift]
    rfl

theorem strides_le {d : Date} {days : Int} (h : (d.shift days).month = d.month) :
    -30 ≤ days ∧ days ≤ 30 := by
  have hshift := d.dayNumber_shift days
  have hdays := d.month.days_le
  have hday := d.in_month
  have hday' := (d.shift days).in_month
  rw [h] at hday'
  unfold dayNumber at hshift
  rw [h] at hshift
  omega

/-- A way to leave a month in strides of one direction: all strides but the last stay in the month,
and the last one enters its neighbour. -/
structure Enters (sign : Int) (enter : Date → Date) : Prop where
  index : ∀ d, (enter d).month.index = d.month.index + sign
  strides : ∀ d, ∃ n : Nat, enter d = d.shift (sign * 14 * (n + 1)) ∧
    (d.shift (sign * 14 * n)).month = d.month

theorem enters_next : Enters 1 enterNext where
  index d := by simp [month_enterNext]
  strides d := by simpa using d.exists_enterNext

theorem enters_previous : Enters (-1) enterPrevious where
  index d := by simp [month_enterPrevious, Int.sub_eq_add_neg]
  strides d := by simpa using d.exists_enterPrevious

variable {sign : Int} {enter : Date → Date}

theorem index_shift_mono (hsign : sign = 1 ∨ sign = -1) (d : Date) {m n : Nat} (h : m ≤ n) :
    sign * (d.shift (sign * 14 * m)).month.index ≤ sign * (d.shift (sign * 14 * n)).month.index := by
  have hle {a b : Int} (hab : a ≤ b) : (d.shift a).month.index ≤ (d.shift b).month.index := by
    apply month_le_of_dayNumber_le
    rw [dayNumber_shift, dayNumber_shift]
    omega
  rcases hsign with rfl | rfl
  · have := hle (a := 1 * 14 * m) (b := 1 * 14 * n) (by omega)
    omega
  · have := hle (a := -1 * 14 * n) (b := -1 * 14 * m) (by omega)
    omega

/-- After several months the walk is at the first of its strides that is in the month it reaches. -/
theorem Enters.exists_repeat (h : Enters sign enter) (hsign : sign = 1 ∨ sign = -1) (months : Nat)
    (d : Date) : ∃ n : Nat, n ≤ 3 * months ∧
      Nat.repeat enter months d = d.shift (sign * 14 * n) ∧
      ∀ k < n, (d.shift (sign * 14 * k)).month ≠ (Nat.repeat enter months d).month := by
  induction months with
  | zero => exact ⟨0, Nat.le_refl 0, by simp [Nat.repeat], by simp⟩
  | succ months ih =>
    obtain ⟨n, hn, hreached, -⟩ := ih
    obtain ⟨m, harrives, hstays⟩ := h.strides (Nat.repeat enter months d)
    have hindex := h.index (Nat.repeat enter months d)
    have hm := strides_le hstays
    have hlast : (d.shift (sign * 14 * (n + m : Nat))).month =
        (Nat.repeat enter months d).month := by
      rw [← hstays, hreached, shift_shift]
      congr 2
      rw [Int.natCast_add, Int.mul_add]
    refine ⟨n + m + 1, ?_, ?_, fun k hk hmonth => ?_⟩
    · rcases hsign with rfl | rfl <;> omega
    · rw [Nat.repeat, harrives, hreached, shift_shift]
      congr 1
      rw [← Int.mul_add, Nat.add_assoc, Int.natCast_add, Int.natCast_succ]
    · -- The strides before the last one have not left the month that was reached before.
      have hmono := index_shift_mono hsign d (Nat.le_of_lt_succ hk)
      rw [hlast, hmonth, Nat.repeat, hindex] at hmono
      rcases hsign with rfl | rfl <;> omega

theorem exists_walk (d : Date) (months : Int) : ∃ n : Nat, n ≤ 3 * months.natAbs ∧
    d.walk months = d.shift (months.sign * 14 * n) ∧
    ∀ k < n, (d.shift (months.sign * 14 * k)).month ≠ (d.walk months).month := by
  unfold walk
  split
  next hneg =>
    rw [Int.sign_eq_neg_one_of_neg hneg]
    exact enters_previous.exists_repeat (.inr rfl) months.natAbs d
  next hnonneg =>
    rcases Int.lt_or_eq_of_le (Int.not_lt.1 hnonneg) with hpos | rfl
    · rw [Int.sign_eq_one_of_pos hpos]
      exact enters_next.exists_repeat (.inl rfl) months.natAbs d
    · exact ⟨0, Nat.le_refl 0, by simp [Nat.repeat], by simp⟩

end Date

namespace Rotation

@[simp] theorem length_months (rotation : Rotation) (today : Date) :
    (rotation.months today).length = rotation.past + 1 := by
  simp [months]

theorem index_getElem_months (rotation : Rotation) (today : Date) {i : Nat}
    (h : i < (rotation.months today).length) :
    (rotation.months today)[i].index = today.month.index - rotation.past + i := by
  simp only [months, List.getElem_map, List.getElem_range, Date.index_walk]
  omega

theorem pairwise_months (rotation : Rotation) (today : Date) :
    (rotation.months today).Pairwise (· < ·) := by
  rw [List.pairwise_iff_getElem]
  intro i j hi hj hlt
  rw [Month.lt_iff, index_getElem_months, index_getElem_months]
  omega

/-- A walk of any distance from any date ends at the first of its strides that is in the month at
that distance, within three strides for every month. The retained months are the months up to the
current one, as many as are asked for but at least one, in their order; and the next table is that of
the month after the current one. -/
theorem walks_month_by_month (today : Date) :
    (∀ months : Int,
      12 * (today.walk months).year + (today.walk months).month.number =
        12 * today.year + today.month.number + months ∧
      ∃ n : Nat, n ≤ 3 * months.natAbs ∧
        today.walk months = today.shift (months.sign * 14 * n) ∧
        ∀ k < n, (today.shift (months.sign * 14 * k)).month ≠ (today.walk months).month) ∧
    ∀ stem retained rotation, make stem retained = .ok rotation →
      (rotation.months today).length = min (max retained 1) 2147483647 ∧
      (∀ i (h : i < (rotation.months today).length),
        (rotation.months today)[i].index + ((rotation.months today).length - 1 - i : Nat) =
          today.month.index) ∧
      (rotation.months today).Pairwise (· < ·) ∧
      rotation.nextTable today = TableName.ofMonth stem today.month.next := by
  refine ⟨fun months => ⟨?_, today.exists_walk months⟩, fun stem retained rotation h => ?_⟩
  · have hindex := today.index_walk months
    have hnumber := today.month.in_year
    have hnumber' := (today.walk months).month.in_year
    unfold Month.index at hindex
    unfold Date.year
    omega
  · obtain ⟨rfl, hretained⟩ := make_eq_ok h
    refine ⟨?_, fun i hi => ?_, rotation.pairwise_months today, rotation.nextTable_eq today⟩
    · simp only [length_months, past, maxWindow, hretained]
      omega
    · rw [index_getElem_months]
      simp only [length_months] at hi ⊢
      omega

def leapDay : Date := ⟨⟨2024, 2, by decide⟩, 29, by decide⟩

def currentOnly : Rotation := ⟨"mail", 1, by decide, by decide⟩

theorem walks_month_by_month_leap_day :
    make "mail" 0 = .ok currentOnly ∧
    12 * (leapDay.walk (-12)).year + (leapDay.walk (-12)).month.number = 12 * 2023 + 2 ∧
    (currentOnly.months leapDay).length = 1 ∧
    currentOnly.nextTable leapDay = "mail_2024_03" := by
  have hmake : make "mail" 0 = .ok currentOnly := rfl
  obtain ⟨hwalks, hrotations⟩ := walks_month_by_month leapDay
  obtain ⟨hlength, -, -, hnext⟩ := hrotations "mail" 0 currentOnly hmake
  exact ⟨hmake, (hwalks (-12)).1, hlength, hnext.trans (by decide +kernel)⟩

end Rotation

end PushQueue
