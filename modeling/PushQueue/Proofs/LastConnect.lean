import PushQueue.LastConnect
import PushQueue.Proofs.Rotation
import PushQueue.Proofs.Text.ByteOrder
import PushQueue.Proofs.Walk
import PushQueue.RouterRecord

/-!
The last-connect index, read back. A value keeps year, month, hour and bucket in decimal fields of
their own. It starts with the digits of its month, and with those of no other month whose year has
four digits too.
-/

namespace PushQueue

def Month.InFourDigits (m : Month) : Prop := 1000 ≤ m.year ∧ m.year ≤ 9999

instance (m : Month) : Decidable m.InFourDigits := inferInstanceAs (Decidable (_ ∧ _))

theorem Month.eq_iff {m n : Month} : m = n ↔ m.year = n.year ∧ m.number = n.number := by
  obtain ⟨year, number, hnumber⟩ := m
  obtain ⟨year', number', hnumber'⟩ := n
  simp only [Month.mk.injEq]

theorem Instant.hour_lt (t : Instant) : t.hour < 24 := by
  unfold hour
  omega

namespace LastConnect

open Text

variable {m : Month} {v : UInt64} {now : Instant}

structure Fields where
  year : Nat
  month : Nat
  hour : Nat
  bucket : Nat
deriving DecidableEq

def fieldsOf (v : UInt64) : Fields where
  year := v.toNat / 100000000
  month := v.toNat / 1000000 % 100
  hour := v.toNat / 10000 % 100
  bucket := v.toNat % 10000

/-- The fields of a connection at `now`; `draw` is the random choice of a bucket. -/
def fieldsAt (now : Instant) (buckets draw : Nat) : Fields where
  year := now.date.year.toNat
  month := now.date.month.number
  hour := now.hour
  bucket := draw % clampBuckets buckets

section Digits

theorem toDigits_div_prefix {n k : Nat} (h : 10 ^ k ≤ n) :
    Nat.toDigits 10 (n / 10 ^ k) <+: Nat.toDigits 10 n := by
  induction k with
  | zero => simp
  | succ k ih =>
    rw [Nat.pow_succ] at h
    have hten : 10 ≤ n / 10 ^ k := (Nat.le_div_iff_mul_le (by positivity)).2 (by omega)
    have hlast : Nat.toDigits 10 (n / 10 ^ (k + 1)) <+: Nat.toDigits 10 (n / 10 ^ k) := by
      rw [Nat.toDigits_of_base_le (by decide) hten, Nat.div_div_eq_div_mul, ← Nat.pow_succ]
      exact List.prefix_append _ _
    exact hlast.trans (ih (by omega))

theorem toDigits_inj {a b : Nat} : Nat.toDigits 10 a = Nat.toDigits 10 b ↔ a = b := by
  refine ⟨fun h => ?_, fun h => h ▸ rfl⟩
  have hread := congrArg (fun cs => Nat.ofDigitChars 10 cs 0) h
  simpa only [Nat.ofDigitChars_ten_toDigits] using hread

theorem monthDigits_eq (h : 1 ≤ m.year) :
    monthDigits m = Nat.toDigits 10 (100 * m.year.toNat + m.number) := by
  obtain ⟨year, hyear⟩ := Int.eq_ofNat_of_zero_le (Int.le_trans (by decide) h)
  have htext : (toString (year : Int)).toList = Nat.toDigits 10 year := String.toList_ofList
  have hnumber := m.in_year
  have hsplit : 100 * year + m.number = 10 * (10 * year + m.number / 10) + m.number % 10 := by
    omega
  have hpadded : padded 10 2 m.number =
      [Nat.digitChar (m.number / 10)] ++ [Nat.digitChar (m.number % 10)] := by
    rw [padded_succ (by decide), padded_one (by omega)]
  have htens : Nat.toDigits 10 (10 * year + m.number / 10) =
      Nat.toDigits 10 year ++ [Nat.digitChar (m.number / 10)] := by
    rw [← Nat.toDigits_append_toDigits (by decide) (by omega) (by omega),
      Nat.toDigits_of_lt_base (n := m.number / 10) (by omega)]
  unfold monthDigits Month.digits
  rw [hyear, htext, Int.toNat_natCast, hsplit, hpadded, List.append_nil, ← List.append_assoc,
    ← htens, ← Nat.toDigits_append_toDigits (by decide) (by omega) (Nat.mod_lt _ (by decide)),
    Nat.toDigits_of_lt_base (n := m.number % 10) (Nat.mod_lt _ (by decide))]

theorem length_toDigits_six {n : Nat} (hlow : 100000 ≤ n) (hhigh : n < 1000000) :
    (Nat.toDigits 10 n).length = 6 := by
  have hle : (Nat.toDigits 10 n).length ≤ 6 :=
    (Nat.length_toDigits_le_iff (by decide) (by decide)).2 hhigh
  have hlt : ¬ (Nat.toDigits 10 n).length ≤ 5 := fun hfive => by
    have hbelow := (Nat.length_toDigits_le_iff (by decide) (by decide)).1 hfive
    omega
  omega

theorem inMonth_iff (hlow : 100000000000 ≤ v.toNat) (hhigh : v.toNat < 1000000000000)
    (hm : m.InFourDigits) :
    inMonth (some v) m = true ↔ v.toNat / 1000000 = 100 * m.year.toNat + m.number := by
  obtain ⟨hyear, hyear'⟩ := hm
  have hnumber := m.in_year
  have hlead : Nat.toDigits 10 (v.toNat / 1000000) <+: Nat.toDigits 10 v.toNat :=
    toDigits_div_prefix (k := 6) (by omega)
  have hlength : (Nat.toDigits 10 (100 * m.year.toNat + m.number)).length =
      (Nat.toDigits 10 (v.toNat / 1000000)).length := by
    rw [length_toDigits_six (by omega) (by omega), length_toDigits_six (by omega) (by omega)]
  rw [inMonth, monthDigits_eq (by omega), List.isPrefixOf_iff_prefix]
  constructor
  · intro h
    have hstarts := List.prefix_of_prefix_length_le h hlead (Nat.le_of_eq hlength)
    exact (toDigits_inj.1 (hstarts.eq_of_length hlength)).symm
  · intro h
    rwa [h] at hlead

end Digits

section Stamps

theorem bucket_lt (buckets draw : Nat) : draw % clampBuckets buckets < 10000 := by
  have hpos : 0 < clampBuckets buckets := by
    unfold clampBuckets maxBuckets
    omega
  have hle : clampBuckets buckets ≤ 10000 := Nat.min_le_right _ _
  exact Nat.lt_of_lt_of_le (Nat.mod_lt _ hpos) hle

theorem toNat_stamp (h : now.date.month.InFourDigits) (buckets draw : Nat) :
    (stamp now buckets draw).toNat =
      now.date.year.toNat * 100000000 + now.date.month.number * 1000000 + now.hour * 10000 +
        draw % clampBuckets buckets := by
  obtain ⟨-, hyear⟩ := h
  have hnumber := now.date.month.in_year
  have hhour := now.hour_lt
  have hbucket := bucket_lt buckets draw
  unfold stamp Date.year
  rw [UInt64.toNat_ofNat_of_lt']
  rw [UInt64.size]
  omega

/-- The fields do not run into one another. -/
theorem fieldsOf_stamp (h : now.date.month.InFourDigits) (buckets draw : Nat) :
    fieldsOf (stamp now buckets draw) = fieldsAt now buckets draw := by
  have hnumber := now.date.month.in_year
  have hhour := now.hour_lt
  have hbucket := bucket_lt buckets draw
  unfold fieldsOf fieldsAt
  rw [toNat_stamp h, Fields.mk.injEq]
  omega

theorem inMonth_stamp_iff (h : now.date.month.InFourDigits) (hm : m.InFourDigits)
    (buckets draw : Nat) :
    inMonth (some (stamp now buckets draw)) m = true ↔ now.date.month = m := by
  obtain ⟨hyear, hyear'⟩ := id h
  obtain ⟨hlow, hhigh⟩ := id hm
  have hnumber := now.date.month.in_year
  have hnumber' := m.in_year
  have hhour := now.hour_lt
  have hbucket := bucket_lt buckets draw
  have hstamp := toNat_stamp h buckets draw
  unfold Date.year at hstamp
  rw [inMonth_iff (by omega) (by omega) hm, ← Month.index_inj]
  unfold Month.index
  omega

/-- A value is recent exactly in the month of its connection. Its decimal fields are the year, the
month, the hour and the bucket, none of which runs over into the next, and two values are equal only
if all of them are. -/
theorem stamp_names_month_and_hour (hnow : now.date.month.InFourDigits) (buckets draw : Nat) :
    (∀ today : Date, today.month.InFourDigits →
      ∀ record : RouterRecord, record.lastConnect = some (stamp now buckets draw) →
        (inMonth record.lastConnect today.month = true ↔
          now.date.year = today.year ∧ now.date.month.number = today.month.number)) ∧
    fieldsOf (stamp now buckets draw) = fieldsAt now buckets draw ∧
    (now.hour < 24 ∧ draw % clampBuckets buckets < 10000) ∧
    ∀ (now' : Instant) (buckets' draw' : Nat), now'.date.month.InFourDigits →
      (stamp now buckets draw = stamp now' buckets' draw' ↔
        fieldsAt now buckets draw = fieldsAt now' buckets' draw') := by
  refine ⟨fun today htoday record hrecord => ?_, fieldsOf_stamp hnow buckets draw,
    ⟨now.hour_lt, bucket_lt buckets draw⟩,
    fun now' buckets' draw' hnow' => ⟨fun h => ?_, fun h => ?_⟩⟩
  · rw [hrecord, inMonth_stamp_iff hnow htoday]
    exact Month.eq_iff
  · rw [← fieldsOf_stamp hnow, ← fieldsOf_stamp hnow', h]
  · obtain ⟨hyear, hmonth, hhour, hbucket⟩ := Fields.mk.inj h
    have hnat : (stamp now buckets draw).toNat = (stamp now' buckets' draw').toNat := by
      rw [toNat_stamp hnow, toNat_stamp hnow', hyear, hmonth, hhour, hbucket]
    exact UInt64.toNat_inj.1 hnat

def leapNight : Instant := ⟨1709251199999⟩

theorem date_leapNight : leapNight.date = Rotation.leapDay := by
  have hday : leapNight.ms / 86400000 = Rotation.leapDay.dayNumber := by decide
  rw [Instant.date, hday, Date.ofDays_dayNumber]

/-- More buckets are asked for than there are, and the draw is the last of them. -/
def leapNightRecord : RouterRecord :=
  { RouterRecord.fresh leapNight ⟨⟨1⟩⟩ with lastConnect := some (stamp leapNight 50000 29999) }

theorem stamp_names_month_and_hour_leap_night :
    leapNight.date.month.InFourDigits ∧
    inMonth leapNightRecord.lastConnect Rotation.leapDay.month = true ∧
    fieldsOf (stamp leapNight 50000 29999) = ⟨2024, 2, 23, 9999⟩ ∧
    stamp leapNight 50000 29999 = stamp leapNight 10000 9999 := by
  have hmonth : leapNight.date.month.InFourDigits := by
    rw [date_leapNight]
    decide
  obtain ⟨hrecent, hfields, -, hequal⟩ := stamp_names_month_and_hour hmonth 50000 29999
  refine ⟨hmonth, ?_, ?_, ?_⟩
  · refine (hrecent Rotation.leapDay (by decide) leapNightRecord rfl).2 ?_
    rw [date_leapNight]
    exact ⟨rfl, rfl⟩
  · rw [hfields, fieldsAt, date_leapNight]
    decide
  · exact (hequal leapNight 10000 9999 hmonth).2 rfl

end Stamps

end LastConnect

end PushQueue
