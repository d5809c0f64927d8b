import PushQueue.Calendar.Date

/-!
Walking through the calendar. A stride stays in its month or enters a neighbouring one, so that the
walk enters the months one after another, whatever the day it starts from.
-/

namespace PushQueue

namespace Month

theorem le_iff {m n : Month} : m ≤ n ↔ m.index ≤ n.index := Iff.rfl

theorem lt_iff {m n : Month} : m < n ↔ m.index < n.index := Iff.rfl

theorem not_le {m n : Month} : ¬ m ≤ n ↔ n < m := by
  rw [le_iff, lt_iff, Int.not_le]

theorem not_lt {m n : Month} : ¬ m < n ↔ n ≤ m := by
  rw [le_iff, lt_iff, Int.not_lt]

end Month

namespace Date

theorem month_forward (d : Date) : d.forward.month = d.month ∨ d.forward.month = d.month.next := by
  unfold forward
  split
  · exact .inl rfl
  · exact .inr rfl

theorem month_backward (d : Date) :
    d.backward.month = d.month ∨ d.backward.month = d.month.previous := by
  unfold backward
  split
  · exact .inl rfl
  · exact .inr rfl

theorem month_enterNext (d : Date) : d.enterNext.month = d.month.next := by
  induction d using enterNext.induct with
  | case1 d hsame ih =>
    rw [enterNext, if_pos hsame, ih, month_forward_eq hsame]
  | case2 d hother =>
    rw [enterNext, if_neg hother]
    exact d.month_forward.resolve_left fun h => hother (congrArg Month.number h)

theorem month_enterPrevious (d : Date) : d.enterPrevious.month = d.month.previous := by
  induction d using enterPrevious.induct with
  | case1 d hsame ih =>
    rw [enterPrevious, if_pos hsame, ih, month_backward_eq hsame]
  | case2 d hother =>
    rw [enterPrevious, if_neg hother]
    exact d.month_backward.resolve_left fun h => hother (congrArg Month.number h)

theorem index_repeat {f : Date → Date} {step : Int}
    (h : ∀ d, (f d).month.index = d.month.index + step) (n : Nat) (d : Date) :
    (Nat.repeat f n d).month.index = d.month.index + n * step := by
  induction n with
  | zero => simp [Nat.repeat]
  | succ n ih =>
    rw [Nat.repeat, h, ih, Int.natCast_succ, Int.add_mul, Int.one_mul, Int.add_assoc]

theorem index_walk (d : Date) (months : Int) :
    (d.walk months).month.index = d.month.index + months := by
  have hnext : ∀ d : Date, d.enterNext.month.index = d.month.index + 1 := by
    simp [month_enterNext]
  have hprevious : ∀ d : Date, d.enterPrevious.month.index = d.month.index + -1 := by
    simp [month_enterPrevious, Int.sub_eq_add_neg]
  unfold walk
  split
  · rw [index_repeat hprevious]
    omega
  · rw [index_repeat hnext]
    omega

end Date

end PushQueue
