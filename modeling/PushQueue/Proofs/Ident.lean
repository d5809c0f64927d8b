import PushQueue.Ident
import PushQueue.Proofs.Text.Fields

/-!
The canonical text of an identifier. It is read back as the identifier, holds neither colons nor
blanks, and its byte order is the order of the identifiers.
-/

namespace PushQueue

namespace Uuid

open Text

theorem lt_digits (u : Uuid) : u.bits.toNat < 16 ^ 32 := u.bits.isLt

@[simp] theorem length_digits (u : Uuid) : u.digits.length = 32 :=
  length_padded_of_lt (by decide) u.lt_digits

def isTextChar (c : Char) : Bool := c = '-' || (List.range 16).any fun d => c = Nat.digitChar d

theorem isTextChar_spec {c : Char} (h : isTextChar c) :
    c.toNat < 128 ∧ c ≠ ':' ∧ isBlank c = false := by
  have all : ∀ d < 16, (Nat.digitChar d).toNat < 128 ∧ Nat.digitChar d ≠ ':' ∧
      isBlank (Nat.digitChar d) = false := by decide
  simp only [isTextChar, Bool.or_eq_true, decide_eq_true_eq, List.any_eq_true,
    List.mem_range] at h
  rcases h with rfl | ⟨d, hd, rfl⟩
  · decide
  · exact all d hd

theorem digit_of_mem_digits {u : Uuid} {c : Char} (h : c ∈ u.digits) :
    ∃ d < 16, c = Nat.digitChar d :=
  digitChar_of_mem_padded (by decide) h u.lt_digits

theorem isTextChar_of_mem_digits {u : Uuid} {c : Char} (h : c ∈ u.digits) : isTextChar c := by
  obtain ⟨d, hd, rfl⟩ := digit_of_mem_digits h
  simp only [isTextChar, Bool.or_eq_true, List.any_eq_true, List.mem_range, decide_eq_true_eq]
  exact .inr ⟨d, hd, rfl⟩

theorem flatten_groups (ds : List Char) : (groups ds).flatten = ds := by
  have h20 : ds.drop 20 = (ds.drop 16).drop 4 := by rw [List.drop_drop]
  have h16 : ds.drop 16 = (ds.drop 12).drop 4 := by rw [List.drop_drop]
  have h12 : ds.drop 12 = (ds.drop 8).drop 4 := by rw [List.drop_drop]
  simp only [groups, List.flatten_cons, List.flatten_nil, List.append_nil]
  rw [h20, List.take_append_drop, h16, List.take_append_drop, h12, List.take_append_drop,
    List.take_append_drop]

theorem length_groups {ds : List Char} (h : ds.length = 32) :
    (groups ds).map List.length = [8, 4, 4, 4, 12] := by
  simp [groups, h]

theorem ofDigits?_digits (u : Uuid) : ofDigits? u.digits = some u := by
  have hread : readHex? u.digits = some u.bits.toNat := readHex?_padded u.lt_digits
  rw [ofDigits?, if_pos u.length_digits, hread]
  simp

theorem simple_injective {u v : Uuid} (h : u.simple = v.simple) : u = v := by
  have hdigits : u.digits = v.digits := String.ofList_injective h
  have hread := ofDigits?_digits u
  rw [hdigits, ofDigits?_digits] at hread
  exact (Option.some.inj hread).symm

theorem hyphen_notMem_groups (u : Uuid) : ∀ part ∈ groups u.digits, '-' ∉ part := by
  intro part hpart hmem
  have hdigit : '-' ∈ u.digits := by
    rw [← flatten_groups u.digits]
    exact List.mem_flatten_of_mem hpart hmem
  obtain ⟨d, hd, heq⟩ := digit_of_mem_digits hdigit
  have all : ∀ d < 16, '-' ≠ Nat.digitChar d := by decide
  exact all d hd heq

theorem toList_hyphenated (u : Uuid) : u.hyphenated.toList = joinFields '-' (groups u.digits) :=
  String.toList_ofList

theorem isTextChar_of_mem_hyphenated {u : Uuid} {c : Char} (h : c ∈ u.hyphenated.toList) :
    isTextChar c := by
  rw [toList_hyphenated] at h
  rcases mem_joinFields h with rfl | h
  · rfl
  · rw [flatten_groups] at h
    exact isTextChar_of_mem_digits h

theorem length_hyphenated (u : Uuid) : u.hyphenated.toList.length = 36 := by
  rw [toList_hyphenated]
  simp [groups, joinFields]

structure Leads (u : Uuid) (a b c : Nat) : Prop where
  lt_first : a < 16
  lt_second : b < 16
  lt_third : c < 16
  toList_eq : ∃ rest, u.hyphenated.toList =
    Nat.digitChar a :: Nat.digitChar b :: Nat.digitChar c :: rest

theorem exists_leads (u : Uuid) : ∃ a b c, Leads u a b c := by
  have hmem : ∀ x ∈ u.digits, ∃ d < 16, x = Nat.digitChar d := fun _ => digit_of_mem_digits
  have hlength := u.length_digits
  have htext := u.toList_hyphenated
  match hdigits : u.digits with
  | x :: y :: z :: rest =>
    rw [hdigits] at hmem htext
    obtain ⟨a, ha, rfl⟩ := hmem x (by simp)
    obtain ⟨b, hb, rfl⟩ := hmem y (by simp)
    obtain ⟨c, hc, rfl⟩ := hmem z (by simp)
    exact ⟨a, b, c, ha, hb, hc, _, htext⟩
  | [] | [_] | [_, _] => simp [hdigits] at hlength

theorem ofChars?_hyphenated (u : Uuid) : ofChars? u.hyphenated.toList = some u := by
  have hbare : ofDigits? u.hyphenated.toList = none := by
    rw [ofDigits?, if_neg (by simp [length_hyphenated])]
  have hfields : fields '-' u.hyphenated.toList = groups u.digits := by
    rw [toList_hyphenated]
    exact fields_joinFields (by simp [groups]) (hyphen_notMem_groups u)
  have hgroups : ofHyphenated? u.hyphenated.toList = some u := by
    unfold ofHyphenated?
    rw [hfields, if_pos (length_groups u.length_digits), flatten_groups, ofDigits?_digits]
  simp [ofChars?, hbare, hgroups]

theorem utf8_hyphenated (u : Uuid) : utf8 u.hyphenated = ascii (joinFields '-' (groups u.digits)) :=
  utf8_ofList_of_ascii fun _ hc =>
    (isTextChar_spec (isTextChar_of_mem_hyphenated (by rwa [toList_hyphenated]))).1

theorem Leads.utf8_eq {u : Uuid} {a b c : Nat} (h : u.Leads a b c) :
    ∃ rest, utf8 u.hyphenated = digitByte a :: digitByte b :: digitByte c :: rest := by
  obtain ⟨rest, hrest⟩ := h.toList_eq
  rw [utf8_hyphenated, ← toList_hyphenated, hrest]
  exact ⟨ascii rest, rfl⟩

theorem compareBytes_hyphenated (u v : Uuid) :
    compareBytes u.hyphenated v.hyphenated = compare u v := by
  have hlen : (groups u.digits).map List.length = (groups v.digits).map List.length := by
    rw [length_groups u.length_digits, length_groups v.length_digits]
  rw [compareBytes_eq, utf8_hyphenated, utf8_hyphenated, compare_ascii_joinFields '-' hlen,
    flatten_groups, flatten_groups]
  exact compare_ascii_padded (by decide) (by decide) u.lt_digits v.lt_digits

end Uuid

namespace Ident

open Text

variable {role : Role}

@[simp] theorem parse_text (id : Ident role) : parse id.text = .ok id := by
  have htrim : trimBlanks id.text.toList = id.text.toList :=
    trimBlanks_of_all fun _ hc => (Uuid.isTextChar_spec (Uuid.isTextChar_of_mem_hyphenated hc)).2.2
  unfold parse
  rw [htrim, text, Uuid.ofChars?_hyphenated]

theorem text_injective {a b : Ident role} (h : a.text = b.text) : a = b := by
  have hparse := a.parse_text
  rw [h, b.parse_text] at hparse
  exact (Except.ok.inj hparse).symm

theorem simple_injective {a b : Ident role} (h : a.simple = b.simple) : a = b := by
  have huuid : a.uuid = b.uuid := Uuid.simple_injective h
  cases a
  cases b
  exact congrArg _ huuid

theorem colon_notMem_text (id : Ident role) : ':' ∉ id.text.toList := fun h =>
  (Uuid.isTextChar_spec (Uuid.isTextChar_of_mem_hyphenated h)).2.1 rfl

theorem length_text (id : Ident role) : id.text.toList.length = 36 := id.uuid.length_hyphenated

theorem isEmpty_text (id : Ident role) : id.text.toList.isEmpty = false := by
  rw [List.isEmpty_eq_false_iff]
  intro hnil
  have hlen := id.length_text
  simp [hnil] at hlen

theorem length_utf8_text (id : Ident role) : (utf8 id.text).length = 36 := by
  rw [text, Uuid.utf8_hyphenated, length_ascii, ← Uuid.toList_hyphenated, Uuid.length_hyphenated]

theorem compareBytes_text (a b : Ident role) : compareBytes a.text b.text = compare a b :=
  Uuid.compareBytes_hyphenated a.uuid b.uuid

end Ident

end PushQueue
