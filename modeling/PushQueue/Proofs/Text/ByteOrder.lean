import Mathlib.Algebra.Group.Nat.Defs
import PushQueue.Text.ByteOrder
import PushQueue.Text.Numeral

/-!
Byte order of composed texts. Texts that agree in the width of their first part compare part by
part, and numerals of a fixed width compare as the numbers they write.
-/

namespace PushQueue.Text

theorem compare_toNat (a b : UInt64) : compare a b = compare a.toNat b.toNat := by
  have hlt : a < b ↔ a.toNat < b.toNat := UInt64.lt_iff_toNat_lt
  have heq : a = b ↔ a.toNat = b.toNat := UInt64.toNat_inj.symm
  change compareOfLessAndEq a b = compareOfLessAndEq a.toNat b.toNat
  simp only [compareOfLessAndEq, hlt, heq]

theorem compare_byte (a b : UInt8) : compare a b = compare a.toNat b.toNat := by
  have hlt : a < b ↔ a.toNat < b.toNat := UInt8.lt_iff_toNat_lt
  have heq : a = b ↔ a.toNat = b.toNat := UInt8.toNat_inj.symm
  change compareOfLessAndEq a b = compareOfLessAndEq a.toNat b.toNat
  simp only [compareOfLessAndEq, hlt, heq]

theorem compare_append_of_length_eq {α : Type} [Ord α] {a b : List α}
    (h : a.length = b.length) (x y : List α) :
    compare (a ++ x) (b ++ y) = (compare a b).then (compare x y) := by
  induction a generalizing b with
  | nil =>
    have hb : b = [] := List.length_eq_zero_iff.1 h.symm
    subst hb
    simp
  | cons c a ih =>
    cases b with
    | nil => simp at h
    | cons d b =>
      have hlen : a.length = b.length := by simpa using h
      simp [ih hlen, Ordering.then_assoc]

theorem utf8_append (s t : String) : utf8 (s ++ t) = utf8 s ++ utf8 t := by
  simp [utf8, String.toByteArray_append, ByteArray.data_append]

theorem compareBytes_eq (s t : String) : compareBytes s t = compare (utf8 s) (utf8 t) := rfl

theorem compareBytes_append {s t : String} (h : (utf8 s).length = (utf8 t).length)
    (x y : String) :
    compareBytes (s ++ x) (t ++ y) = (compareBytes s t).then (compareBytes x y) := by
  simp only [compareBytes_eq, utf8_append]
  exact compare_append_of_length_eq h _ _

theorem compareBytes_append_left (s x y : String) :
    compareBytes (s ++ x) (s ++ y) = compareBytes x y := by
  have hself : compareBytes s s = .eq := Std.ReflCmp.compare_self
  rw [compareBytes_append rfl, hself]
  rfl

def ascii (cs : List Char) : List UInt8 := cs.map fun c => UInt8.ofNat c.toNat

theorem length_ascii (cs : List Char) : (ascii cs).length = cs.length := by
  simp [ascii]

theorem utf8_ofList_of_ascii {cs : List Char} (h : ∀ c ∈ cs, c.toNat < 128) :
    utf8 (String.ofList cs) = ascii cs := by
  have hchar : ∀ c ∈ cs, String.utf8EncodeChar c = [UInt8.ofNat c.toNat] := by
    intro c hc
    have hle : c.toNat ≤ 127 := Nat.le_of_lt_succ (h c hc)
    simp [String.utf8EncodeChar, hle]
  unfold utf8 ascii
  rw [String.toByteArray_ofList, List.utf8Encode, List.data_toByteArray, List.toList_toArray,
    List.map_eq_flatMap, List.flatMap_def, List.flatMap_def, List.map_congr_left hchar]

section Numerals

variable {base : Nat}

theorem padded_succ (hbase : 1 < base) (width n : Nat) :
    padded base (width + 2) n =
      padded base (width + 1) (n / base) ++ [Nat.digitChar (n % base)] := by
  unfold padded List.leftpad
  by_cases hn : n < base
  · rw [Nat.toDigits_of_lt_base hn, Nat.div_eq_of_lt hn, Nat.mod_eq_of_lt hn, Nat.toDigits_zero]
    simp [List.replicate_succ']
  · rw [Nat.toDigits_of_base_le hbase (Nat.le_of_not_lt hn)]
    simp

theorem padded_one {n : Nat} (h : n < base) : padded base 1 n = [Nat.digitChar n] := by
  simp [padded, List.leftpad, Nat.toDigits_of_lt_base h]

theorem length_padded_of_lt {width n : Nat} (hbase : 1 < base) (h : n < base ^ (width + 1)) :
    (padded base (width + 1) n).length = width + 1 :=
  length_padded ((Nat.length_toDigits_le_iff hbase (Nat.succ_pos width)).2 h)

theorem digitChar_of_mem_padded {width n : Nat} {c : Char} (hbase : 1 < base)
    (h : c ∈ padded base (width + 1) n) (hn : n < base ^ (width + 1)) :
    ∃ d < base, c = Nat.digitChar d := by
  induction width generalizing n with
  | zero =>
    rw [padded_one (by simpa using hn)] at h
    exact ⟨n, by simpa using hn, List.mem_singleton.1 h⟩
  | succ width ih =>
    rw [padded_succ hbase, List.mem_append] at h
    rcases h with h | h
    · exact ih h ((Nat.div_lt_iff_lt_mul (by omega)).2 (by rwa [← Nat.pow_succ]))
    · exact ⟨n % base, Nat.mod_lt _ (by omega), List.mem_singleton.1 h⟩

theorem compare_div_mod (hbase : 0 < base) (m n : Nat) :
    (compare (m / base) (n / base)).then (compare (m % base) (n % base)) = compare m n := by
  have hm := Nat.div_add_mod m base
  have hn := Nat.div_add_mod n base
  have hlm := Nat.mod_lt m hbase
  have hln := Nat.mod_lt n hbase
  rcases Nat.lt_trichotomy (m / base) (n / base) with h | h | h
  · have hlt : m < n := by
      have hmul : base * (m / base) + base ≤ base * (n / base) := by
        rw [← Nat.mul_succ]
        exact Nat.mul_le_mul_left _ h
      omega
    rw [Nat.compare_eq_lt.2 h, Nat.compare_eq_lt.2 hlt]
    rfl
  · rw [h] at hm ⊢
    rw [Nat.compare_eq_eq.2 rfl]
    rcases Nat.lt_trichotomy (m % base) (n % base) with h' | h' | h'
    · rw [Nat.compare_eq_lt.2 h', Nat.compare_eq_lt.2 (by omega)]
      rfl
    · rw [Nat.compare_eq_eq.2 h', Nat.compare_eq_eq.2 (by omega)]
      rfl
    · rw [Nat.compare_eq_gt.2 h', Nat.compare_eq_gt.2 (by omega)]
      rfl
  · have hlt : n < m := by
      have hmul : base * (n / base) + base ≤ base * (m / base) := by
        rw [← Nat.mul_succ]
        exact Nat.mul_le_mul_left _ h
      omega
    rw [Nat.compare_eq_gt.2 h, Nat.compare_eq_gt.2 hlt]
    rfl

def digitByte (d : Nat) : UInt8 := UInt8.ofNat (Nat.digitChar d).toNat

theorem compare_digitByte {a b : Nat} (ha : a < 16) (hb : b < 16) :
    compare (digitByte a) (digitByte b) = compare a b := by
  have all : ∀ a b : Fin 16, compare (digitByte a) (digitByte b) = compare a.val b.val := by
    decide
  exact all ⟨a, ha⟩ ⟨b, hb⟩

theorem compare_ascii_digitChar {a b : Nat} (ha : a < 16) (hb : b < 16) :
    compare (ascii [Nat.digitChar a]) (ascii [Nat.digitChar b]) = compare a b := by
  change compare [digitByte a] [digitByte b] = compare a b
  rw [List.compare_cons_cons, compare_digitByte ha hb]
  exact Ordering.then_eq

theorem compare_ascii_padded (hbase : 1 < base) (hdigits : base ≤ 16) {width m n : Nat}
    (hm : m < base ^ (width + 1)) (hn : n < base ^ (width + 1)) :
    compare (ascii (padded base (width + 1) m)) (ascii (padded base (width + 1) n)) =
      compare m n := by
  induction width generalizing m n with
  | zero =>
    have hm' : m < base := by simpa using hm
    have hn' : n < base := by simpa using hn
    rw [padded_one hm', padded_one hn']
    exact compare_ascii_digitChar (by omega) (by omega)
  | succ width ih =>
    have hm' : m / base < base ^ (width + 1) :=
      (Nat.div_lt_iff_lt_mul (by omega)).2 (by rwa [← Nat.pow_succ])
    have hn' : n / base < base ^ (width + 1) :=
      (Nat.div_lt_iff_lt_mul (by omega)).2 (by rwa [← Nat.pow_succ])
    have hlm := Nat.mod_lt m (show base > 0 by omega)
    have hln := Nat.mod_lt n (show base > 0 by omega)
    have hlen : (ascii (padded base (width + 1) (m / base))).length =
        (ascii (padded base (width + 1) (n / base))).length := by
      rw [length_ascii, length_ascii, length_padded_of_lt hbase hm',
        length_padded_of_lt hbase hn']
    rw [padded_succ hbase, padded_succ hbase]
    calc compare (ascii (padded base (width + 1) (m / base) ++ [Nat.digitChar (m % base)]))
          (ascii (padded base (width + 1) (n / base) ++ [Nat.digitChar (n % base)]))
        = (compare (ascii (padded base (width + 1) (m / base)))
            (ascii (padded base (width + 1) (n / base)))).then
          (compare (ascii [Nat.digitChar (m % base)]) (ascii [Nat.digitChar (n % base)])) := by
          simp only [ascii, List.map_append] at hlen ⊢
          exact compare_append_of_length_eq hlen _ _
      _ = (compare (m / base) (n / base)).then (compare (m % base) (n % base)) := by
          rw [ih hm' hn', compare_ascii_digitChar (by omega) (by omega)]
      _ = compare m n := compare_div_mod (by omega) m n

end Numerals

end PushQueue.Text
