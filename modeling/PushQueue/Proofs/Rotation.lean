import PushQueue.Proofs.Calendar
import PushQueue.Proofs.Text.Fields
import PushQueue.Rotation

/-!
The window of retained months. A table name is retained exactly if it is the name of a month from
the oldest retained one to the current one. No two months share a name; the name of a month is read
as no other month, and with a year of four digits under no other stem.
-/

namespace PushQueue

open Text

namespace TableName

variable {stem stem' name : String} {m n : Month}

theorem length_number (m : Month) : (padded 10 2 m.number).length = 2 :=
  length_padded_of_lt (by decide) (by have := m.in_year; omega)

theorem ofMonth_injective (h : ofMonth stem m = ofMonth stem n) : m = n := by
  have hdigits : m.digits ['_'] = n.digits ['_'] := by
    unfold ofMonth at h
    exact String.ofList_injective (String.append_right_inj _ |>.1 h)
  unfold Month.digits at hdigits
  obtain ⟨hyear, hnumber⟩ :=
    List.append_inj' hdigits ((length_number m).trans (length_number n).symm)
  have hy := congrArg readInt? (List.append_cancel_right hyear)
  have hn := congrArg readNat? hnumber
  rw [readInt?_toString, readInt?_toString] at hy
  rw [readNat?_padded, readNat?_padded] at hn
  obtain ⟨y, k, hk⟩ := m
  obtain ⟨z, l, hl⟩ := n
  cases hy
  cases hn
  rfl

theorem readMonth?_eq_some {year number : List Char} (h : readMonth? year number = some m) :
    year.length = 4 ∧ number.length = 2 ∧ readInt? year = some m.year ∧
      readUnsigned? number = some m.number := by
  unfold readMonth? at h
  split at h
  next hlength =>
    split at h
    next y n hyear hnumber =>
      split at h
      next =>
        obtain rfl := Option.some.inj h
        exact ⟨hlength.1, hlength.2, hyear, hnumber⟩
      next => cases h
    next => cases h
  next => cases h

theorem fields_of_month (h : month stem name = .ok m) : ∃ year number : List Char,
    name.toList = stem.toList ++ '_' :: (year ++ '_' :: number) ∧ year.length = 4 ∧
      number.length = 2 ∧ readInt? year = some m.year ∧ readUnsigned? number = some m.number := by
  unfold month at h
  simp only at h
  split at h
  next found hfound =>
    obtain rfl := Except.ok.inj h
    obtain ⟨rest, hafter, hfound⟩ := Option.bind_eq_some_iff.1 hfound
    obtain ⟨⟨year, number⟩, hcut, hread⟩ := Option.bind_eq_some_iff.1 hfound
    refine ⟨year, number, ?_, readMonth?_eq_some hread⟩
    rw [after?_eq_some_iff.1 hafter, eq_append_of_cut? hcut, List.append_assoc,
      List.singleton_append]
  next => cases h

theorem toList_ofMonth (stem : String) (m : Month) : (ofMonth stem m).toList =
    stem.toList ++ '_' :: ((toString m.year).toList ++ '_' :: padded 10 2 m.number) := by
  simp [ofMonth, Month.digits]

theorem month_ofMonth (h : month stem (ofMonth stem m) = .ok n) : n = m := by
  obtain ⟨year, number, hname, -, hlength, hyear, hnumber⟩ := fields_of_month h
  rw [toList_ofMonth] at hname
  obtain ⟨-, hdigits⟩ := List.cons.inj (List.append_cancel_left hname)
  obtain ⟨rfl, hnumbers⟩ := List.append_inj' hdigits (by simp [length_number, hlength])
  obtain ⟨-, rfl⟩ := List.cons.inj hnumbers
  rw [readInt?_toString] at hyear
  rw [readUnsigned?_of_isDigit fun c => isDigit_of_mem_padded, readNat?_padded] at hnumber
  obtain ⟨y, k, hk⟩ := m
  obtain ⟨z, l, hl⟩ := n
  cases hyear
  cases hnumber
  rfl

theorem length_year {year : Int} (hlow : 1000 ≤ year) (hhigh : year ≤ 9999) :
    (toString year).toList.length = 4 := by
  obtain ⟨n, rfl⟩ := Int.eq_ofNat_of_zero_le (Int.le_trans (by decide) hlow)
  have htext : (toString (n : Int)).toList = Nat.toDigits 10 n := String.toList_ofList
  have hle : (Nat.toDigits 10 n).length ≤ 4 :=
    (Nat.length_toDigits_le_iff (by decide) (by decide)).2 (by omega)
  have hlt : ¬ (Nat.toDigits 10 n).length ≤ 3 := fun h => by
    have := (Nat.length_toDigits_le_iff (by decide) (by decide)).1 h
    omega
  rw [htext]
  omega

theorem stem_eq_of_month (h : month stem (ofMonth stem' m) = .ok n) (hlow : 1000 ≤ m.year)
    (hhigh : m.year ≤ 9999) : stem = stem' := by
  obtain ⟨year, number, hname, hyear, hlength, -⟩ := fields_of_month h
  rw [toList_ofMonth] at hname
  obtain ⟨hstem, -⟩ := List.append_inj' hname (by
    rw [List.length_cons, List.length_append, List.length_cons, length_year hlow hhigh,
      length_number, List.length_cons, List.length_append, List.length_cons, hyear, hlength])
  exact (String.toList_inj.1 hstem).symm

theorem isDigit_of_mem_year {year : Int} (h : 0 ≤ year) {c : Char}
    (hc : c ∈ (toString year).toList) : c.isDigit := by
  obtain ⟨n, rfl⟩ := Int.eq_ofNat_of_zero_le h
  have htext : (toString (n : Int)).toList = Nat.toDigits 10 n := String.toList_ofList
  rw [htext] at hc
  exact Nat.isDigit_of_mem_toDigits (by decide) (by decide) hc

theorem isValid_ofMonth (hstem : isValid stem = true) (hyear : 0 ≤ m.year) :
    isValid (ofMonth stem m) = true := by
  have hallowed : ∀ c ∈ '_' :: ((toString m.year).toList ++ '_' :: padded 10 2 m.number),
      (isLower c || c.isDigit || c = '_') = true := by
    intro c hc
    simp only [List.mem_cons, List.mem_append] at hc
    rcases hc with rfl | hc | rfl | hc
    · decide
    · simp [isDigit_of_mem_year hyear hc]
    · decide
    · simp [isDigit_of_mem_padded hc]
  unfold isValid at hstem ⊢
  rw [toList_ofMonth]
  cases hcs : stem.toList with
  | nil => simp [hcs] at hstem
  | cons c cs =>
    rw [hcs] at hstem
    simp only [Bool.and_eq_true] at hstem
    simp only [List.cons_append, List.all_append, Bool.and_eq_true]
    exact ⟨hstem.1, hstem.2, List.all_eq_true.2 hallowed⟩

end TableName

namespace Rotation

variable {rotation : Rotation} {today : Date} {name : String} {month : Month}

theorem make_eq_ok {stem : String} {retained : Nat}
    (h : make stem retained = .ok rotation) :
    rotation.stem = stem ∧ rotation.retained = max retained 1 := by
  unfold make at h
  split at h
  next =>
    cases h
    exact ⟨rfl, rfl⟩
  next => cases h

theorem index_oldest (rotation : Rotation) (today : Date) :
    (rotation.oldest today).index = today.month.index - rotation.past := by
  rw [oldest, Date.index_walk, Int.sub_eq_add_neg]

theorem oldest_le (rotation : Rotation) (today : Date) : rotation.oldest today ≤ today.month := by
  rw [Month.le_iff, index_oldest]
  omega

theorem oldest_mono (rotation : Rotation) {day : Date} (h : today.month ≤ day.month) :
    rotation.oldest today ≤ rotation.oldest day := by
  rw [Month.le_iff] at h
  rw [Month.le_iff, index_oldest, index_oldest]
  omega

theorem nextTable_eq (rotation : Rotation) (today : Date) :
    rotation.nextTable today = TableName.ofMonth rotation.stem today.month.next := by
  have hmonth : (today.walk 1).month = today.month.next := by
    rw [← Month.index_inj, Date.index_walk, Month.index_next]
  rw [nextTable, hmonth]

theorem mem_months_iff :
    month ∈ rotation.months today ↔ rotation.oldest today ≤ month ∧ month ≤ today.month := by
  have hoffset : ∀ i : Nat, (today.walk ((i : Int) - rotation.past)).month.index =
      today.month.index + ((i : Int) - rotation.past) := fun i => Date.index_walk _ _
  rw [Month.le_iff, Month.le_iff, index_oldest, months, List.mem_map]
  constructor
  · rintro ⟨i, hi, rfl⟩
    have := hoffset i
    have := List.mem_range.1 hi
    omega
  · rintro ⟨hlow, hhigh⟩
    -- The month lies as far into the list as it lies after the oldest one.
    refine ⟨(month.index - (today.month.index - rotation.past)).toNat,
      List.mem_range.2 (by omega), Month.index_inj.1 ?_⟩
    rw [hoffset]
    omega

theorem retains_iff : rotation.retains today name = true ↔
    ∃ month, rotation.oldest today ≤ month ∧ month ≤ today.month ∧
      name = TableName.ofMonth rotation.stem month := by
  rw [retains, tables, List.contains_iff_mem, List.mem_map]
  constructor
  · rintro ⟨month, hmem, rfl⟩
    obtain ⟨hlow, hhigh⟩ := mem_months_iff.1 hmem
    exact ⟨month, hlow, hhigh, rfl⟩
  · rintro ⟨month, hlow, hhigh, rfl⟩
    exact ⟨month, mem_months_iff.2 ⟨hlow, hhigh⟩, rfl⟩

theorem retains_ofMonth_iff :
    rotation.retains today (TableName.ofMonth rotation.stem month) = true ↔
      rotation.oldest today ≤ month ∧ month ≤ today.month := by
  rw [retains_iff]
  constructor
  · rintro ⟨month', hlow, hhigh, heq⟩
    rw [TableName.ofMonth_injective heq]
    exact ⟨hlow, hhigh⟩
  · rintro ⟨hlow, hhigh⟩
    exact ⟨month, hlow, hhigh, rfl⟩

end Rotation

end PushQueue
