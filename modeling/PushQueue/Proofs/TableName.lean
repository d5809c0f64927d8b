import Mathlib.Data.List.Induction
import PushQueue.Proofs.Router
import PushQueue.Proofs.Upkeep

/-!
Names read as months. A name is read back as it was written unless its fields are numerals that no
month is written with: a year filled up with zeros or a plus sign, or a month with a plus sign. A
table name holds no signs, so among the tables that are dropped only the year can differ.
-/

namespace PushQueue

namespace Text

variable {cs : List Char} {n : Nat}

theorem digitChar_of_isDigit {c : Char} (h : c.isDigit) :
    c.toNat - '0'.toNat < 10 ∧ Nat.digitChar (c.toNat - '0'.toNat) = c := by
  obtain ⟨hlow, hhigh⟩ := Char.isDigit_iff_toNat.1 h
  have hzero : '0'.toNat = 48 := rfl
  have hnine : '9'.toNat = 57 := rfl
  have hlt : c.toNat - '0'.toNat < 10 := by omega
  refine ⟨hlt, Char.toNat_inj.1 ?_⟩
  rw [Nat.toNat_digitChar_of_lt_ten hlt]
  omega

theorem padded_of_readNat? (h : readNat? cs = some n) : padded 10 cs.length n = cs := by
  unfold readNat? at h
  split at h
  next hdigits =>
    obtain ⟨hne, hall⟩ := hdigits
    obtain rfl := Option.some.inj h
    clear h
    induction cs using List.reverseRecOn with
    | nil => contradiction
    | append_singleton cs c ih =>
      rw [List.all_append, Bool.and_eq_true] at hall
      obtain ⟨hlt, hchar⟩ := digitChar_of_isDigit (by simpa using hall.2)
      rw [Nat.ofDigitChars_append, Nat.ofDigitChars_cons, Nat.ofDigitChars_nil,
        List.length_append, List.length_singleton]
      cases cs with
      | nil =>
        rw [Nat.ofDigitChars_nil, List.length_nil, padded_one (by omega), Nat.mul_zero,
          Nat.zero_add, hchar]
        rfl
      | cons d ds =>
        have hrest := ih (List.cons_ne_nil d ds) hall.1
        have hdiv (n : Nat) : (10 * n + (c.toNat - '0'.toNat)) / 10 = n := by
          rw [Nat.mul_add_div (by decide), Nat.div_eq_of_lt hlt, Nat.add_zero]
        rw [List.length_cons] at hrest ⊢
        rw [padded_succ (by decide), hdiv, hrest, Nat.mul_add_mod, Nat.mod_eq_of_lt hlt, hchar]
  next => cases h

theorem length_toDigits_le_of_readNat? (h : readNat? cs = some n) :
    (Nat.toDigits 10 n).length ≤ cs.length := by
  have hlength := congrArg List.length (padded_of_readNat? h)
  simp only [padded, List.leftpad, List.length_append, List.length_replicate] at hlength
  omega

theorem toDigits_of_readNat? (h : readNat? cs = some n)
    (hlength : cs.length ≤ (Nat.toDigits 10 n).length) : Nat.toDigits 10 n = cs := by
  have hpadded := padded_of_readNat? h
  rwa [padded, List.leftpad, Nat.sub_eq_zero_of_le hlength] at hpadded

theorem readInt?_cases {y : Int} (h : readInt? cs = some y) :
    (∃ ds n, cs = '-' :: ds ∧ readNat? ds = some n ∧ y = -(n : Int)) ∨
      (∃ ds n, cs = '+' :: ds ∧ readNat? ds = some n ∧ y = n) ∨
      ∃ n, readNat? cs = some n ∧ y = n := by
  unfold readInt? at h
  split at h
  next ds =>
    obtain ⟨value, hvalue, rfl⟩ := Option.map_eq_some_iff.1 h
    obtain ⟨n, hn, hcast⟩ := Option.bind_eq_some_iff.1 hvalue
    obtain rfl := Option.some.inj hcast
    exact .inl ⟨ds, n, rfl, hn, rfl⟩
  next ds =>
    obtain ⟨n, hn, rfl⟩ := Option.map_eq_some_iff.1 h
    exact .inr (.inl ⟨ds, n, rfl, hn, rfl⟩)
  next =>
    obtain ⟨n, hn, rfl⟩ := Option.map_eq_some_iff.1 h
    exact .inr (.inr ⟨n, hn, rfl⟩)

theorem toList_toString_natCast (n : Nat) : (toString (n : Int)).toList = Nat.toDigits 10 n :=
  String.toList_ofList

theorem toList_toString_neg (n : Nat) :
    (toString (-((n + 1 : Nat) : Int))).toList = '-' :: Nat.toDigits 10 (n + 1) := by
  change ("-" ++ Nat.repr (n + 1)).toList = _
  simp [Nat.repr]

theorem cut?_append {sep : Char} {before : List Char} (h : sep ∉ before) (rest : List Char) :
    cut? sep (before ++ sep :: rest) = some (before, rest) := by
  have hbefore : ∀ c ∈ before, decide (c ≠ sep) = true := fun c hc =>
    decide_eq_true fun heq => h (heq ▸ hc)
  unfold cut?
  rw [List.dropWhile_append_of_pos hbefore, List.takeWhile_append_of_pos hbefore,
    List.dropWhile_cons_of_neg (by simp), List.takeWhile_cons_of_neg (by simp), List.append_nil]

end Text

open Text

namespace TableName

variable {stem name : String} {m : Month} {year number : List Char}

theorem toString_year_iff {y : Int} (hlength : year.length = 4) (hread : readInt? year = some y) :
    (toString y).toList = year ↔ 1000 ≤ y ∨ y ≤ -100 := by
  have hdigits (n : Nat) : (Nat.toDigits 10 n).length ≤ 3 ↔ n < 10 ^ 3 :=
    Nat.length_toDigits_le_iff (by decide) (by decide)
  rcases readInt?_cases hread with ⟨ds, n, rfl, hn, rfl⟩ | ⟨ds, n, rfl, hn, rfl⟩ | ⟨n, hn, rfl⟩
  · rw [List.length_cons] at hlength
    have hle := length_toDigits_le_of_readNat? hn
    have htwo : (Nat.toDigits 10 n).length ≤ 2 ↔ n < 10 ^ 2 :=
      Nat.length_toDigits_le_iff (by decide) (by decide)
    cases n with
    | zero =>
      refine iff_of_false (fun heq => ?_) (by omega)
      have hzero := congrArg List.length heq
      rw [List.length_cons, hlength] at hzero
      cases hzero
    | succ n =>
      rw [toList_toString_neg, List.cons.injEq, eq_self, true_and]
      constructor
      · rintro rfl
        omega
      · intro hy
        exact toDigits_of_readNat? hn (by omega)
  · rw [List.length_cons] at hlength
    have hle := length_toDigits_le_of_readNat? hn
    refine iff_of_false (fun heq => ?_) (by have := (hdigits n).1 (by omega); omega)
    rw [toList_toString_natCast] at heq
    rw [heq, List.length_cons] at hle
    omega
  · have hle := length_toDigits_le_of_readNat? hn
    rw [toList_toString_natCast]
    constructor
    · rintro rfl
      have := hdigits n
      omega
    · intro hy
      have := hdigits n
      exact toDigits_of_readNat? hn (by omega)

theorem padded_number_iff {k : Nat} (hlength : number.length = 2)
    (hread : readUnsigned? number = some k) : padded 10 2 k = number ↔ '+' ∉ number := by
  constructor
  · rintro rfl hmem
    have hdigit : '+'.isDigit := isDigit_of_mem_padded hmem
    cases hdigit
  · intro hplus
    unfold readUnsigned? at hread
    split at hread
    next rest => exact absurd List.mem_cons_self hplus
    next =>
      rw [← hlength]
      exact padded_of_readNat? hread

/-- A name that is read as a month is the name of that month unless signs or zeros fill up its
fields. -/
theorem ofMonth_eq_iff (h : month stem name = .ok m) :
    ofMonth stem m = name ↔
      (1000 ≤ m.year ∨ m.year ≤ -100) ∧ '+' ∉ name.toList.reverse.take 2 := by
  obtain ⟨year, number, hname, hyear, hnumber, hreadYear, hreadNumber⟩ := fields_of_month h
  have hlast : name.toList.reverse.take 2 = number.reverse := by
    rw [hname, ← List.cons_append, ← List.singleton_append (l := number), ← List.append_assoc,
      ← List.append_assoc, List.reverse_append, ← hnumber, ← List.length_reverse,
      List.take_left]
  rw [hlast, List.mem_reverse, ← toString_year_iff hyear hreadYear,
    ← padded_number_iff hnumber hreadNumber, ← String.toList_inj, toList_ofMonth, hname,
    List.append_cancel_left_eq, List.cons.injEq, eq_self, true_and]
  constructor
  · intro heq
    obtain ⟨hleft, hright⟩ := List.append_inj' heq (by simp [length_number, hnumber])
    exact ⟨hleft, (List.cons.inj hright).2⟩
  · rintro ⟨hleft, hright⟩
    rw [hleft, hright]

theorem month_ofMonth_of_year (stem : String) (hlow : 1000 ≤ m.year) (hhigh : m.year ≤ 9999) :
    month stem (ofMonth stem m) = .ok m := by
  have hsep : '_' ∉ (toString m.year).toList := fun hmem => by
    have hdigit := isDigit_of_mem_year (by omega) hmem
    cases hdigit
  have hread : readMonth? (toString m.year).toList (padded 10 2 m.number) = some m := by
    unfold readMonth?
    rw [if_pos ⟨length_year hlow hhigh, length_number m⟩, readInt?_toString,
      readUnsigned?_of_isDigit fun c => isDigit_of_mem_padded, readNat?_padded]
    exact dif_pos m.in_year
  have hafter : after? (stem.toList ++ ['_']) (ofMonth stem m).toList =
      some ((toString m.year).toList ++ '_' :: padded 10 2 m.number) := by
    rw [after?_eq_some_iff, toList_ofMonth, List.append_assoc, List.singleton_append]
  unfold month
  simp only [hafter, cut?_append hsep, hread, Option.bind_eq_bind, Option.bind_some]

theorem not_mem_of_isValid (h : isValid name = true) {c : Char}
    (hc : (isLower c || c.isDigit || c = '_') = false) : c ∉ name.toList := by
  unfold isValid at h
  split at h
  next => cases h
  next d ds hname =>
    obtain ⟨hhead, htail⟩ := Bool.and_eq_true_iff.1 h
    rw [hname]
    intro hmem
    rcases List.mem_cons.1 hmem with rfl | hmem
    · rw [hhead] at hc
      cases hc
    · rw [List.all_eq_true.1 htail c hmem] at hc
      cases hc

theorem ofMonth_eq_iff_of_isValid (hname : isValid name = true) (h : month stem name = .ok m) :
    ofMonth stem m = name ↔ 1000 ≤ m.year := by
  have hplus : '+' ∉ name.toList := not_mem_of_isValid hname (by decide)
  have hminus : '-' ∉ name.toList := not_mem_of_isValid hname (by decide)
  constructor
  · intro heq
    refine ((ofMonth_eq_iff h).1 heq).1.resolve_right fun hyear => hminus ?_
    obtain ⟨n, hn⟩ : ∃ n : Nat, m.year = -((n + 1 : Nat) : Int) :=
      ⟨(-m.year).toNat - 1, by omega⟩
    rw [← heq, toList_ofMonth, hn, toList_toString_neg]
    simp
  · intro hyear
    refine (ofMonth_eq_iff h).2 ⟨.inl hyear, fun hmem => hplus ?_⟩
    exact List.mem_reverse.1 (List.mem_of_mem_take hmem)

end TableName

namespace Migration

variable {names dropped : List String} {name : String} {e : Engine} {store : Store}
  {rotation : Rotation} {today : Date}

theorem isValid_of_mem_dropTables (h : (dropTables names).Gives e dropped store)
    (hname : name ∈ dropped) : TableName.isValid name = true := by
  induction names generalizing e dropped with
  | nil =>
    obtain ⟨rfl, -⟩ := Action.Gives.of_pure h
    cases hname
  | cons first rest ih =>
    obtain ⟨hit, e₁, hcall, hafter⟩ := Action.Gives.of_bind h
    obtain ⟨others, hothers, rfl⟩ := Action.Gives.of_bind_pure hafter
    cases hit with
    | false => exact ih hothers hname
    | true =>
      rcases List.mem_cons.1 hname with rfl | hname
      · have hdrop := hcall.of_call
        unfold Store.dropMessageTable at hdrop
        split at hdrop
        next => cases hdrop
        next hcheck => exact Store.checkName_eq_ok_iff.1 hcheck
      · exact ih hothers hname

theorem dropped_ofMonth_iff (h : (dropRetired rotation today).Gives e dropped store)
    (hname : name ∈ dropped) : ∃ month, TableName.month rotation.stem name = .ok month ∧
      ((∃ other, name = TableName.ofMonth rotation.stem other) ↔ 1000 ≤ month.year) := by
  obtain ⟨stored, e₁, -, hdropped⟩ := Action.Gives.of_bind h
  obtain ⟨-, -, hmem⟩ := dropTables_of_gives hdropped
  have hretired := (List.mem_filter.1 ((hmem name).1 hname).1).2
  obtain ⟨month, hmonth, -⟩ := isRetired_eq_true_iff.1 hretired
  have hown := TableName.ofMonth_eq_iff_of_isValid (isValid_of_mem_dropTables hdropped hname) hmonth
  refine ⟨month, hmonth, fun ⟨other, heq⟩ => hown.1 ?_, fun hyear => ⟨month, (hown.2 hyear).symm⟩⟩
  rw [heq] at hmonth ⊢
  rw [TableName.month_ofMonth hmonth]

end Migration

namespace TableName

/-- The name of a month with a year of four digits is read back. What else is read as a month is its
name unless signs or zeros fill up the fields, and so a table is dropped under the name of no month
only if zeros fill up its year. -/
theorem read_as_named_iff (stem : String) :
    (∀ (name : String) (m : Month), month stem name = .ok m →
      (ofMonth stem m = name ↔
        (1000 ≤ m.year ∨ m.year ≤ -100) ∧ '+' ∉ name.toList.reverse.take 2)) ∧
    (∀ m : Month, 1000 ≤ m.year → m.year ≤ 9999 → month stem (ofMonth stem m) = .ok m) ∧
    ∀ (rotation : Rotation) (today : Date) (e : Engine) (dropped : List String) (store : Store),
      rotation.stem = stem → (Migration.dropRetired rotation today).Gives e dropped store →
        ∀ name ∈ dropped, ∃ m, month stem name = .ok m ∧
          ((∃ n, name = ofMonth stem n) ↔ 1000 ≤ m.year) := by
  refine ⟨fun _ _ => ofMonth_eq_iff, fun _ => month_ofMonth_of_year stem, ?_⟩
  rintro rotation today e dropped store rfl h name hname
  exact Migration.dropped_ofMonth_iff h hname

def paddedYears : Engine where
  store := ⟨(SortedMap.empty.insert "message_2023_10" (.messages .empty)).insert
    "message_0999_01" (.messages .empty)⟩

def inPaddedYears : Except StoreError (List String) × Engine :=
  Action.run (Migration.dropRetired Router.quarter (Router.midJanuary 2024)) paddedYears

theorem read_as_named_iff_january :
    month "message" "message_2024_01" = .ok (Router.midJanuary 2024).month ∧
    ofMonth "message" (Router.midJanuary 2024).month = "message_2024_01" ∧
    month "" (ofMonth "" (Router.midJanuary 2024).month) = .ok (Router.midJanuary 2024).month ∧
    inPaddedYears.1 = .ok ["message_0999_01", "message_2023_10"] ∧
    ∃ n, "message_2023_10" = ofMonth "message" n := by
  obtain ⟨hnamed, -, hdrop⟩ := read_as_named_iff "message"
  obtain ⟨-, hback, -⟩ := read_as_named_iff ""
  have hread : month "message" "message_2024_01" = .ok (Router.midJanuary 2024).month := by
    decide +kernel
  have hdropped : inPaddedYears.1 = .ok ["message_0999_01", "message_2023_10"] := by
    decide +kernel
  refine ⟨hread, (hnamed _ _ hread).2 ⟨.inl (by decide), by decide⟩,
    hback _ (by decide) (by decide), hdropped, ?_⟩
  obtain ⟨m, hm, hown⟩ := hdrop Router.quarter (Router.midJanuary 2024) paddedYears _
    inPaddedYears.2.store rfl ⟨_, Prod.ext hdropped rfl, rfl⟩ "message_2023_10" (by simp)
  have hoctober : month "message" "message_2023_10" = .ok ⟨2023, 10, by decide⟩ := by
    decide +kernel
  obtain rfl := Except.ok.inj (hoctober.symm.trans hm)
  exact hown.2 (by decide)

/-- A year filled up with a zero and a month with a plus sign are read, under names that their
months do not have; and a table of the former kind is dropped. -/
theorem reads_filled_up_fields :
    month "message" "message_0999_01" = .ok (Router.midJanuary 999).month ∧
    ofMonth "message" (Router.midJanuary 999).month = "message_999_01" ∧
    month "message" "message_2024_+1" = .ok (Router.midJanuary 2024).month ∧
    ofMonth "message" (Router.midJanuary 2024).month = "message_2024_01" ∧
    inPaddedYears.1 = .ok ["message_0999_01", "message_2023_10"] ∧
    ∀ n, ofMonth "message" n ≠ "message_0999_01" := by
  have hread : month "message" "message_0999_01" = .ok (Router.midJanuary 999).month := by
    decide +kernel
  have hnamed : ofMonth "message" (Router.midJanuary 999).month = "message_999_01" := by
    decide +kernel
  refine ⟨hread, hnamed, by decide +kernel, by decide +kernel, by decide +kernel, fun n heq => ?_⟩
  rw [← heq] at hread
  rw [← month_ofMonth hread, hnamed] at heq
  revert heq
  decide

end TableName

end PushQueue
