import Mathlib.Data.List.Induction
import PushQueue.Proofs.Text.Fields

/-!
Letter case. Hexadecimal digits are read alike in either case, and the text of a number in a field
of its own width is what was read, in lower case. A letter is a blank in neither case.
-/

namespace PushQueue.Text

theorem toNat_toLower (c : Char) :
    65 ≤ c.toNat ∧ c.toNat ≤ 90 ∧ c.toLower.toNat = c.toNat + 32 ∨
      (c.toNat < 65 ∨ 90 < c.toNat) ∧ c.toLower.toNat = c.toNat := by
  have hupper : c.val ≥ 'A'.val ∧ c.val ≤ 'Z'.val ↔ 65 ≤ c.toNat ∧ c.toNat ≤ 90 := Iff.rfl
  unfold Char.toLower
  by_cases h : c.val ≥ 'A'.val ∧ c.val ≤ 'Z'.val
  · obtain ⟨hlow, hhigh⟩ := hupper.1 h
    have hshift : ('a'.val - 'A'.val).toNat = 32 := rfl
    have hval : c.val.toNat = c.toNat := rfl
    have hsum : (c.val + ('a'.val - 'A'.val)).toNat = c.toNat + 32 := by
      rw [UInt32.toNat_add, hshift, hval]
      omega
    rw [dif_pos h]
    exact .inl ⟨hlow, hhigh, hsum⟩
  · rw [dif_neg h]
    rw [hupper] at h
    exact .inr ⟨by omega, rfl⟩

theorem toLower_toLower (c : Char) : c.toLower.toLower = c.toLower := by
  have honce := toNat_toLower c
  have htwice := toNat_toLower c.toLower
  rw [← Char.toNat_inj]
  omega

theorem toNat_digitChar {d : Nat} (h : d < 16) :
    d < 10 ∧ (Nat.digitChar d).toNat = 48 + d ∨ 10 ≤ d ∧ (Nat.digitChar d).toNat = 87 + d := by
  have all : ∀ d : Fin 16, d.val < 10 ∧ (Nat.digitChar d).toNat = 48 + d.val ∨
      10 ≤ d.val ∧ (Nat.digitChar d).toNat = 87 + d.val := by decide
  exact all ⟨d, h⟩

theorem hexValue?_eq_some_iff {c : Char} {d : Nat} :
    hexValue? c = some d ↔ d < 16 ∧ c.toLower = Nat.digitChar d := by
  have hdigit : c.isDigit = true ↔ 48 ≤ c.toNat ∧ c.toNat ≤ 57 := Char.isDigit_iff_toNat
  have hlower : 'a' ≤ c ∧ c ≤ 'f' ↔ 97 ≤ c.toNat ∧ c.toNat ≤ 102 := Iff.rfl
  have hupper : 'A' ≤ c ∧ c ≤ 'F' ↔ 65 ≤ c.toNat ∧ c.toNat ≤ 70 := Iff.rfl
  have hbases : '0'.toNat = 48 ∧ 'a'.toNat = 97 ∧ 'A'.toNat = 65 := ⟨rfl, rfl, rfl⟩
  have hread : hexValue? c = some d ↔
      48 ≤ c.toNat ∧ c.toNat ≤ 57 ∧ d = c.toNat - 48 ∨
      97 ≤ c.toNat ∧ c.toNat ≤ 102 ∧ d = c.toNat - 87 ∨
      65 ≤ c.toNat ∧ c.toNat ≤ 70 ∧ d = c.toNat - 55 := by
    unfold hexValue?
    simp only [hdigit, hlower, hupper, hbases]
    split
    · rw [Option.some.injEq]
      omega
    · split
      · rw [Option.some.injEq]
        omega
      · split
        · rw [Option.some.injEq]
          omega
        · simp only [reduceCtorEq, false_iff]
          omega
  have hcase := toNat_toLower c
  rw [hread, ← Char.toNat_inj]
  constructor
  · intro h
    have hlt : d < 16 := by omega
    have hchar := toNat_digitChar hlt
    omega
  · rintro ⟨hlt, heq⟩
    have hchar := toNat_digitChar hlt
    omega

theorem readHex?_map_toLower (cs : List Char) :
    readHex? (cs.map Char.toLower) = readHex? cs := by
  have hchar (c : Char) : hexValue? c.toLower = hexValue? c := by
    ext d
    rw [hexValue?_eq_some_iff, hexValue?_eq_some_iff, toLower_toLower]
  unfold readHex?
  rw [List.foldlM_map]
  simp only [hchar]

theorem padded_of_readHex? {cs : List Char} {n : Nat} (hne : cs ≠ []) (h : readHex? cs = some n) :
    n < 16 ^ cs.length ∧ padded 16 cs.length n = cs.map Char.toLower := by
  induction cs using List.reverseRecOn generalizing n with
  | nil => contradiction
  | append_singleton cs c ih =>
    rw [readHex?_append_singleton] at h
    obtain ⟨high, hhigh, hlast⟩ := Option.bind_eq_some_iff.1 h
    obtain ⟨d, hd, rfl⟩ := Option.map_eq_some_iff.1 hlast
    obtain ⟨hlt, hchar⟩ := hexValue?_eq_some_iff.1 hd
    rw [List.map_append, List.map_singleton, hchar, List.length_append, List.length_singleton]
    cases cs with
    | nil =>
      obtain rfl : 0 = high := Option.some.inj hhigh
      exact ⟨by simpa using hlt, by simpa using padded_one hlt⟩
    | cons c' cs =>
      obtain ⟨hbound, hrest⟩ := ih (List.cons_ne_nil c' cs) hhigh
      have hdiv : (16 * high + d) / 16 = high := by omega
      have hmod : (16 * high + d) % 16 = d := by omega
      rw [List.length_cons] at hrest hbound ⊢
      refine ⟨?_, by rw [padded_succ (by decide), hdiv, hmod, hrest]⟩
      rw [Nat.pow_succ]
      omega

theorem digitChar_mem_lower {d : Nat} (h : d < 16) :
    Nat.digitChar d ∈ "0123456789abcdef".toList := by
  have all : ∀ d < 16, Nat.digitChar d ∈ "0123456789abcdef".toList := by decide
  exact all d h

theorem isBlank_eq_false_of_mem_lower {c : Char} (h : c ∈ "0123456789abcdef".toList) :
    isBlank c = false := by
  have all : ∀ c ∈ "0123456789abcdef".toList, (!isBlank c) = true := List.all_eq_true.1 (by decide)
  simpa using all c h

theorem isBlank_toLower (c : Char) : isBlank c.toLower = isBlank c := by
  have all : ∀ n < 128, isBlank (Char.ofNat n) = true → n ≤ 32 := by decide
  have hletter {d : Char} (hlow : 32 < d.toNat) (hhigh : d.toNat < 128) : isBlank d = false := by
    rw [Bool.eq_false_iff]
    intro hblank
    have hle := all d.toNat hhigh (by rwa [Char.ofNat_toNat])
    omega
  rcases toNat_toLower c with ⟨hlow, hhigh, hshift⟩ | ⟨-, hsame⟩
  · rw [hletter (by omega) (by omega), hletter (by omega) (by omega)]
  · rw [Char.toNat_inj.1 hsame]

end PushQueue.Text
