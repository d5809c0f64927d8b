import Mathlib.Data.List.Basic
import PushQueue.Proofs.Sweep

/-!
Expiry times under a sweep. Times are unsigned, and a sweep compares them signed: where the sign
of a row's expiry is not that of the cutoff, the comparison goes the other way. So a sweep removes
the rows that have expired, and those alone, exactly if no row lies on the other side of the sign.
-/

namespace PushQueue

theorem SortedMap.size_filter_add {κ ν : Type} [Ord κ] (m : SortedMap κ ν) (p : κ → ν → Bool) :
    (m.filter p).size + (m.filter fun k v => !p k v).size = m.size :=
  (List.length_eq_length_filter_add fun entry : κ × ν => p entry.1 entry.2).symm

namespace Store

open Admin (kept get?_kept)

variable {name : String} {rows : MessageRows} {s : Store}

structure SweptDue (name : String) (now : UInt64) (rows : MessageRows) (s : Store) (n : Nat)
    (s' : Store) : Prop where
  count : n = (rows.filter fun _ content => content.expiry < now).size
  stays : s'.messageRows name = .ok (rows.filter fun _ content => !decide (content.expiry < now))
  others : ∀ other, other ≠ name → s'.tables.get? other = s.tables.get? other

theorem get?_kept_eq_some_iff {now : UInt64} {k : RowKey} {content : RowContent} :
    (kept now rows).get? k = some content ↔
      rows.get? k = some content ∧ ¬ (content.expiry < now ↔ SameSign content.expiry now) := by
  rw [get?_kept, Option.filter_eq_some_iff, Bool.not_eq_true', Bool.eq_false_iff, ne_eq,
    expiredBefore_iff_sameSign]

theorem kept_eq_iff (now : UInt64) (rows : MessageRows) :
    (kept now rows = rows.filter fun _ content => !decide (content.expiry < now)) ↔
      ∀ k content, rows.get? k = some content → SameSign content.expiry now := by
  constructor
  · intro heq k content hget
    have hkept : (kept now rows).get? k = some content ↔ _ := get?_kept_eq_some_iff
    rw [heq, SortedMap.get?_filter, Option.filter_eq_some_iff, Bool.not_eq_true',
      decide_eq_false_iff_not] at hkept
    have hdue := not_iff_not.1 (and_congr_right_iff.1 hkept hget)
    by_cases hlt : content.expiry < now
    · exact (hdue.1 hlt).1 hlt
    · exact by_contra fun hsign => hlt (hdue.2 (iff_of_false hlt hsign))
  · intro hsign
    refine SortedMap.ext_get? fun k => Option.ext fun content => ?_
    rw [get?_kept_eq_some_iff, SortedMap.get?_filter, Option.filter_eq_some_iff, Bool.not_eq_true',
      decide_eq_false_iff_not]
    refine and_congr_right fun hget => ?_
    rw [iff_true_right (hsign k content hget)]

/-- A sweep takes the rows that have expired as signed times compare, which are the rows that have
expired if and only if every row's expiry lies on the side of the sign that the cutoff lies on. -/
theorem sweep_takes_due_iff (hrows : s.messageRows name = .ok rows) (now : UInt64) :
    ∃ n s' rows', Store.sweep name now s = .ok (n, s') ∧
      s' = s.setTable name (.messages rows') ∧ n + rows'.size = rows.size ∧
      (∀ k content, rows'.get? k = some content ↔
        rows.get? k = some content ∧ ¬ (content.expiry < now ↔ SameSign content.expiry now)) ∧
      (SweptDue name now rows s n s' ↔
        ∀ k content, rows.get? k = some content → SameSign content.expiry now) := by
  have hname := isValid_of_table (messageRows_eq_ok_iff.1 hrows)
  have hcount := SortedMap.size_filter_add rows fun _ content => decide (content.expiry < now)
  refine ⟨_, _, kept now rows, updateMessages_eq hrows _, rfl, ?_, fun k content =>
    get?_kept_eq_some_iff, ?_⟩
  · exact Nat.sub_add_cancel (Admin.size_kept_le now rows)
  · rw [← kept_eq_iff]
    constructor
    · intro h
      have hstays := h.stays
      rw [messageRows_setTable hname] at hstays
      exact Except.ok.inj hstays
    · intro heq
      constructor
      case count =>
        rw [← heq] at hcount
        exact (Nat.eq_sub_of_add_eq hcount).symm
      case stays =>
        rw [messageRows_setTable hname]
        exact congrArg Except.ok heq
      case others =>
        intro other hother
        rw [get?_setTable, if_neg (Ne.symm hother)]

def rowsUntil (expiry : UInt64) : MessageRows :=
  (SortedMap.empty.insert ⟨"p", "k"⟩ { expiry }).insert ⟨"p", "l"⟩ { expiry := 9 }

def storeUntil (expiry : UInt64) : Store :=
  ⟨SortedMap.empty.insert "message_2024_01" (.messages (rowsUntil expiry))⟩

theorem sweep_takes_due_iff_three :
    (storeUntil 3).messageRows "message_2024_01" = .ok (rowsUntil 3) ∧
    ∃ n s', Store.sweep "message_2024_01" 5 (storeUntil 3) = .ok (n, s') ∧
      SweptDue "message_2024_01" 5 (rowsUntil 3) (storeUntil 3) n s' := by
  have hrows : (storeUntil 3).messageRows "message_2024_01" = .ok (rowsUntil 3) := by
    decide +kernel
  obtain ⟨n, s', rows', hsweep, -, -, -, hdue⟩ := sweep_takes_due_iff hrows 5
  refine ⟨hrows, n, s', hsweep, hdue.2 fun k content hget => ?_⟩
  rw [rowsUntil, SortedMap.get?_insert, SortedMap.get?_insert] at hget
  split at hget
  next =>
    obtain rfl := Option.some.inj hget
    unfold SameSign
    decide
  next =>
    split at hget
    next =>
      obtain rfl := Option.some.inj hget
      unfold SameSign
      decide
    next => cases hget

/-- The latest time there is has its sign set, so a row that is to stay for good goes with the first
sweep. -/
theorem sweep_takes_latest :
    ¬ (18446744073709551615 : UInt64) < 5 ∧
    (storeUntil 18446744073709551615).messageRows "message_2024_01" =
      .ok (rowsUntil 18446744073709551615) ∧
    Store.sweep "message_2024_01" 5 (storeUntil 18446744073709551615) =
      .ok (1, (storeUntil 18446744073709551615).setTable "message_2024_01"
        (.messages (SortedMap.empty.insert ⟨"p", "l"⟩ { expiry := 9 }))) ∧
    (rowsUntil 18446744073709551615).filter (fun _ content => content.expiry < 5) = .empty := by
  decide +kernel

end Store

end PushQueue
