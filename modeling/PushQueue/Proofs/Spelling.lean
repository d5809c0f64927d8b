import PushQueue.Proofs.Ident
import PushQueue.Proofs.Text.Casing

/-!
Spellings of identifiers. An identifier is read from its 32 digits in either case, bare, in
hyphenated groups, in braces or after the URN scheme, with blanks around it, and from nothing else;
it is written in one of these spellings alone. The order of identifiers is that of their sixteen
bytes, and of each of the two texts that they are written as.
-/

namespace PushQueue

namespace Uuid

open Text

variable {u v : Uuid} {cs ds : List Char}

section Spellings

/-- The digits of the identifier, each in either case. -/
def HasDigits (u : Uuid) (ds : List Char) : Prop := ds.map Char.toLower = u.digits

def hyphenate (ds : List Char) : List Char := joinFields '-' (groups ds)

/-- The ways to write an identifier. -/
inductive Spells (u : Uuid) : List Char → Prop
  | bare {ds : List Char} : u.HasDigits ds → Spells u ds
  | hyphenated {ds : List Char} : u.HasDigits ds → Spells u (hyphenate ds)
  | braced {ds : List Char} : u.HasDigits ds → Spells u ('\x7b' :: hyphenate ds ++ ['\x7d'])
  | urn {scheme ds : List Char} : scheme.map Char.toLower = urnScheme → u.HasDigits ds →
    Spells u (scheme ++ hyphenate ds)

theorem HasDigits.length_eq (h : u.HasDigits ds) : ds.length = 32 := by
  rw [← u.length_digits, ← h, List.length_map]

theorem HasDigits.exists_hexValue? (h : u.HasDigits ds) {c : Char} (hc : c ∈ ds) :
    ∃ d, hexValue? c = some d := by
  have hmem : c.toLower ∈ u.digits := h ▸ List.mem_map_of_mem hc
  obtain ⟨d, hd, heq⟩ := digit_of_mem_digits hmem
  exact ⟨d, hexValue?_eq_some_iff.2 ⟨hd, heq⟩⟩

theorem ofDigits?_eq_some_iff : ofDigits? cs = some u ↔ u.HasDigits cs := by
  constructor
  · intro h
    unfold ofDigits? at h
    split at h
    next hlength =>
      obtain ⟨n, hn, rfl⟩ := Option.map_eq_some_iff.1 h
      have hne : cs ≠ [] := List.ne_nil_of_length_eq_add_one hlength
      obtain ⟨hlt, hpadded⟩ := padded_of_readHex? hne hn
      rw [hlength] at hlt hpadded
      have hbits : (BitVec.ofNat 128 n).toNat = n := Nat.mod_eq_of_lt hlt
      rw [HasDigits, digits, hbits, hpadded]
    next => cases h
  · intro h
    have hread := ofDigits?_digits u
    rw [← h, ofDigits?, List.length_map, readHex?_map_toLower] at hread
    exact hread

theorem length_hyphenate (h : ds.length = 32) : (hyphenate ds).length = 36 := by
  simp [hyphenate, groups, joinFields, h]

theorem fields_hyphenate (h : u.HasDigits ds) : fields '-' (hyphenate ds) = groups ds := by
  refine fields_joinFields (by simp [groups]) fun part hpart hmem => ?_
  have hhyphen : '-' ∈ ds := by
    rw [← flatten_groups ds]
    exact List.mem_flatten_of_mem hpart hmem
  obtain ⟨d, hd⟩ := h.exists_hexValue? hhyphen
  cases hd

theorem groups_flatten {parts : List (List Char)}
    (h : parts.map List.length = [8, 4, 4, 4, 12]) : groups parts.flatten = parts := by
  obtain ⟨a, b, c, d, e, rfl⟩ : ∃ a b c d e, parts = [a, b, c, d, e] := by
    have hlength := congrArg List.length h
    rw [List.length_map] at hlength
    match parts, hlength with
    | [a, b, c, d, e], _ => exact ⟨a, b, c, d, e, rfl⟩
  simp only [List.map_cons, List.map_nil, List.cons.injEq, and_true] at h
  obtain ⟨ha, hb, hc, hd, -⟩ := h
  have hdrop (n : Nat) (x y : List Char) (hx : x.length ≤ n) :
      (x ++ y).drop n = y.drop (n - x.length) := by
    rw [List.drop_append, List.drop_eq_nil_of_le hx, List.nil_append]
  simp [groups, hdrop, ha, hb, hc, hd]

theorem ofHyphenated?_eq_some_iff :
    ofHyphenated? cs = some u ↔ ∃ ds, u.HasDigits ds ∧ cs = hyphenate ds := by
  constructor
  · intro h
    simp only [ofHyphenated?] at h
    split at h
    next hlengths =>
      refine ⟨_, ofDigits?_eq_some_iff.1 h, ?_⟩
      rw [hyphenate, groups_flatten hlengths, joinFields_fields]
    next => cases h
  · rintro ⟨ds, hds, rfl⟩
    unfold ofHyphenated?
    rw [fields_hyphenate hds, if_pos (length_groups hds.length_eq), flatten_groups]
    exact ofDigits?_eq_some_iff.2 hds

theorem length_of_ofHyphenated? (h : ofHyphenated? cs = some u) : cs.length = 36 := by
  obtain ⟨ds, hds, rfl⟩ := ofHyphenated?_eq_some_iff.1 h
  exact length_hyphenate hds.length_eq

theorem unbrace?_eq_some_iff :
    unbrace? cs = some ds ↔ cs = '\x7b' :: ds ++ ['\x7d'] := by
  constructor
  · intro h
    unfold unbrace? at h
    split at h
    next inner =>
      split at h
      next hlast =>
        obtain rfl := Option.some.inj h
        obtain ⟨front, rfl⟩ := List.getLast?_eq_some_iff.1 hlast
        rw [List.dropLast_concat]
        rfl
      next => cases h
    next => cases h
  · rintro rfl
    simp [unbrace?]

theorem unscheme?_eq_some_iff :
    unscheme? cs = some ds ↔ ∃ scheme, scheme.map Char.toLower = urnScheme ∧ cs = scheme ++ ds := by
  constructor
  · intro h
    unfold unscheme? at h
    split at h
    next hscheme =>
      obtain rfl := Option.some.inj h
      exact ⟨_, hscheme, (List.take_append_drop _ _).symm⟩
    next => cases h
  · rintro ⟨scheme, hscheme, rfl⟩
    have hlength : urnScheme.length = scheme.length := by
      rw [← hscheme, List.length_map]
    unfold unscheme?
    rw [hlength, List.take_left, List.drop_left, if_pos hscheme]

theorem HasDigits.not_blank (h : u.HasDigits ds) : ∀ c ∈ ds, isBlank c = false := by
  intro c hc
  have hmem : c.toLower ∈ u.digits := h ▸ List.mem_map_of_mem hc
  rw [← isBlank_toLower]
  exact (isTextChar_spec (isTextChar_of_mem_digits hmem)).2.2

theorem Spells.not_blank (h : Spells u cs) : ∀ c ∈ cs, isBlank c = false := by
  have hgroups {ds : List Char} (hds : u.HasDigits ds) : ∀ c ∈ hyphenate ds, isBlank c = false := by
    intro c hc
    rcases mem_joinFields hc with rfl | hmem
    · decide
    · rw [flatten_groups] at hmem
      exact hds.not_blank c hmem
  cases h with
  | bare hds => exact hds.not_blank
  | hyphenated hds => exact hgroups hds
  | braced hds =>
    intro c hc
    simp only [List.cons_append, List.mem_cons, List.mem_append, List.not_mem_nil, or_false] at hc
    rcases hc with rfl | hc | rfl
    · decide
    · exact hgroups hds c hc
    · decide
  | urn hscheme hds =>
    intro c hc
    have all : ∀ c ∈ urnScheme, (!isBlank c) = true := List.all_eq_true.1 (by decide)
    rcases List.mem_append.1 hc with hc | hc
    · rw [← isBlank_toLower]
      simpa using all _ (hscheme ▸ List.mem_map_of_mem hc)
    · exact hgroups hds c hc

theorem length_of_scheme {scheme : List Char} (h : scheme.map Char.toLower = urnScheme) :
    scheme.length = 9 := by
  have hlower := congrArg List.length h
  rwa [List.length_map] at hlower

theorem Spells.length_mem (h : Spells u cs) : cs.length ∈ [32, 36, 38, 45] := by
  cases h with
  | bare hds => simp [hds.length_eq]
  | hyphenated hds => simp [length_hyphenate hds.length_eq]
  | braced hds => simp [length_hyphenate hds.length_eq]
  | urn hscheme hds => simp [length_hyphenate hds.length_eq, length_of_scheme hscheme]

theorem Spells.ne_nil (h : Spells u cs) : cs ≠ [] := by
  rintro rfl
  have hlength := h.length_mem
  simp at hlength

theorem spells_of_ofChars? (h : ofChars? cs = some u) : Spells u cs := by
  unfold ofChars? at h
  simp only [Option.orElse_eq_or, Option.or_eq_some_iff, Option.bind_eq_some_iff] at h
  rcases h with hbare | ⟨-, hgroups | ⟨-, ⟨inner, hbraces, hgroups⟩ |
    ⟨-, inner, hscheme, hgroups⟩⟩⟩
  · exact .bare (ofDigits?_eq_some_iff.1 hbare)
  · obtain ⟨ds, hds, rfl⟩ := ofHyphenated?_eq_some_iff.1 hgroups
    exact .hyphenated hds
  · obtain ⟨ds, hds, rfl⟩ := ofHyphenated?_eq_some_iff.1 hgroups
    obtain rfl := unbrace?_eq_some_iff.1 hbraces
    exact .braced hds
  · obtain ⟨ds, hds, rfl⟩ := ofHyphenated?_eq_some_iff.1 hgroups
    obtain ⟨scheme, hlower, rfl⟩ := unscheme?_eq_some_iff.1 hscheme
    exact .urn hlower hds

theorem Spells.ofChars?_eq (h : Spells u cs) : ofChars? cs = some u := by
  -- The four spellings differ in length, so a reader that is tried earlier refuses.
  have hbare (h : cs.length ≠ 32) : ofDigits? cs = none := if_neg h
  have hgroups (h : cs.length ≠ 36) : ofHyphenated? cs = none := by
    rw [Option.eq_none_iff_forall_ne_some]
    exact fun v hv => h (length_of_ofHyphenated? hv)
  have hbraces (h : cs.length ≠ 38) : (unbrace? cs).bind ofHyphenated? = none := by
    rw [Option.eq_none_iff_forall_ne_some]
    intro v hv
    obtain ⟨inner, hinner, hread⟩ := Option.bind_eq_some_iff.1 hv
    obtain rfl := unbrace?_eq_some_iff.1 hinner
    have hlength := length_of_ofHyphenated? hread
    simp [hlength] at h
  unfold ofChars?
  cases h with
  | bare hds =>
    rw [ofDigits?_eq_some_iff.2 hds]
    rfl
  | hyphenated hds =>
    have hlength := length_hyphenate hds.length_eq
    rw [hbare (by omega), ofHyphenated?_eq_some_iff.2 ⟨_, hds, rfl⟩]
    rfl
  | @braced ds hds =>
    have hlength := length_hyphenate hds.length_eq
    have hread := ofHyphenated?_eq_some_iff.2 ⟨ds, hds, rfl⟩
    rw [hbare (by simp [hlength]), hgroups (by simp [hlength]), unbrace?_eq_some_iff.2 rfl,
      Option.bind_some, hread]
    rfl
  | @urn scheme ds hscheme hds =>
    have hlength := length_hyphenate hds.length_eq
    have hnine := length_of_scheme hscheme
    have hread := ofHyphenated?_eq_some_iff.2 ⟨ds, hds, rfl⟩
    rw [hbare (by simp [hlength, hnine]), hgroups (by simp [hlength, hnine]),
      hbraces (by simp [hlength, hnine]), unscheme?_eq_some_iff.2 ⟨scheme, hscheme, rfl⟩,
      Option.bind_some, hread]
    rfl

/-- An identifier is read from its spellings and from nothing else. -/
theorem ofChars?_eq_some_iff : ofChars? cs = some u ↔ Spells u cs :=
  ⟨spells_of_ofChars?, Spells.ofChars?_eq⟩

end Spellings

section Canonical

/-- Lower case digits in groups of 8, 4, 4, 4 and 12, with hyphens between them. -/
structure IsCanonical (cs : List Char) : Prop where
  length_eq : cs.length = 36
  hyphen_iff : ∀ i, cs[i]? = some '-' ↔ i ∈ [8, 13, 18, 23]
  lower : ∀ c ∈ cs, c = '-' ∨ c ∈ "0123456789abcdef".toList

theorem isCanonical_hyphenated (u : Uuid) : IsCanonical u.hyphenated.toList where
  length_eq := u.length_hyphenated
  hyphen_iff i := by
    rw [toList_hyphenated, getElem?_joinFields_eq_sep_iff u.hyphen_notMem_groups,
      length_groups u.length_digits]
    rfl
  lower c hc := by
    rw [toList_hyphenated] at hc
    rcases mem_joinFields hc with rfl | hmem
    · exact .inl rfl
    · rw [flatten_groups] at hmem
      obtain ⟨d, hd, rfl⟩ := digit_of_mem_digits hmem
      exact .inr (digitChar_mem_lower hd)

theorem hasDigits_digits (u : Uuid) : u.HasDigits u.digits :=
  ofDigits?_eq_some_iff.1 u.ofDigits?_digits

theorem spells_hyphenated (u : Uuid) : Spells u u.hyphenated.toList :=
  u.toList_hyphenated ▸ .hyphenated u.hasDigits_digits

theorem toList_simple (u : Uuid) : u.simple.toList = u.hyphenated.toList.filter (· ≠ '-') := by
  rw [toList_hyphenated, filter_joinFields u.hyphen_notMem_groups, flatten_groups]
  exact String.toList_ofList

theorem spells_simple (u : Uuid) : Spells u u.simple.toList := by
  rw [simple, String.toList_ofList]
  exact .bare u.hasDigits_digits

end Canonical

section Order

def bigEndian : Nat → Nat → List UInt8
  | 0, _ => []
  | width + 1, n => bigEndian width (n / 256) ++ [UInt8.ofNat (n % 256)]

def bytes (u : Uuid) : List UInt8 := bigEndian 16 u.bits.toNat

theorem length_bigEndian (width n : Nat) : (bigEndian width n).length = width := by
  induction width generalizing n with
  | zero => rfl
  | succ width ih => rw [bigEndian, List.length_append, ih, List.length_singleton]

theorem compare_bigEndian {width m n : Nat} (hm : m < 256 ^ width) (hn : n < 256 ^ width) :
    compare (bigEndian width m) (bigEndian width n) = compare m n := by
  induction width generalizing m n with
  | zero =>
    obtain rfl : m = 0 := by simpa using hm
    obtain rfl : n = 0 := by simpa using hn
    rfl
  | succ width ih =>
    have hhigh : m / 256 < 256 ^ width ∧ n / 256 < 256 ^ width := by
      rw [Nat.pow_succ] at hm hn
      omega
    have hlow (k : Nat) : (UInt8.ofNat (k % 256)).toNat = k % 256 :=
      UInt8.toNat_ofNat_of_lt (Nat.mod_lt k (by decide))
    have hlength : (bigEndian width (m / 256)).length = (bigEndian width (n / 256)).length := by
      rw [length_bigEndian, length_bigEndian]
    have hbyte : compare [UInt8.ofNat (m % 256)] [UInt8.ofNat (n % 256)] =
        compare (m % 256) (n % 256) := by
      rw [List.compare_cons_cons, compare_byte, hlow, hlow]
      exact Ordering.then_eq
    rw [bigEndian, bigEndian, compare_append_of_length_eq hlength, ih hhigh.1 hhigh.2, hbyte]
    exact compare_div_mod (by decide) m n

theorem compare_bytes (u v : Uuid) : compare u.bytes v.bytes = compare u v :=
  compare_bigEndian u.bits.isLt v.bits.isLt

theorem compareBytes_simple (u v : Uuid) : compareBytes u.simple v.simple = compare u v := by
  have hascii (w : Uuid) : ∀ c ∈ w.digits, c.toNat < 128 := fun c hc =>
    (isTextChar_spec (isTextChar_of_mem_digits hc)).1
  rw [compareBytes_eq, simple, simple, utf8_ofList_of_ascii (hascii u),
    utf8_ofList_of_ascii (hascii v)]
  exact compare_ascii_padded (by decide) (by decide) u.lt_digits v.lt_digits

end Order

end Uuid

namespace Ident

open Text

variable {role : Role} {text text' : String} {id a b : Ident role}

/-- The text is a spelling of the identifier with blanks around it. -/
def IsSpelledBy (id : Ident role) (text : String) : Prop :=
  ∃ before cs after, text.toList = before ++ cs ++ after ∧ (∀ c ∈ before, isBlank c) ∧
    (∀ c ∈ after, isBlank c) ∧ id.uuid.Spells cs

theorem isSpelledBy_of_spells (h : id.uuid.Spells text.toList) : id.IsSpelledBy text :=
  ⟨[], text.toList, [], by simp, nofun, nofun, h⟩

theorem isSpelledBy_text (id : Ident role) : id.IsSpelledBy id.text :=
  isSpelledBy_of_spells id.uuid.spells_hyphenated

theorem isSpelledBy_simple (id : Ident role) : id.IsSpelledBy id.simple :=
  isSpelledBy_of_spells id.uuid.spells_simple

theorem parse_eq_ok_iff : parse text = .ok id ↔ id.IsSpelledBy text := by
  have hread : parse text = .ok id ↔ id.uuid.Spells (trimBlanks text.toList) := by
    rw [← Uuid.ofChars?_eq_some_iff]
    unfold parse
    cases Uuid.ofChars? (trimBlanks text.toList) with
    | none => simp
    | some uuid =>
      rw [Except.ok.injEq, Option.some.injEq]
      exact ⟨fun h => congrArg Ident.uuid h, congrArg Ident.mk⟩
  rw [hread]
  constructor
  · intro h
    obtain ⟨before, after, htext, hbefore, hafter⟩ := exists_blanks_around text.toList
    exact ⟨before, _, after, htext, hbefore, hafter, h⟩
  · rintro ⟨before, cs, after, htext, hbefore, hafter, h⟩
    rwa [htext, trimBlanks_append hbefore hafter h.not_blank h.ne_nil]

theorem parse_simple (id : Ident role) : parse id.simple = .ok id :=
  parse_eq_ok_iff.2 id.isSpelledBy_simple

theorem compareBytes_simple (a b : Ident role) : compareBytes a.simple b.simple = compare a b :=
  Uuid.compareBytes_simple a.uuid b.uuid

/-- Whoever is read from a text is spelled by it, and every spelling is accepted. The identifier is
written in one way alone, from which it is read back, as it is from its bare digits; so texts are of
one identifier if they are written back alike. The order of identifiers is the order of their bytes,
of the texts that they are written as and of their digits. -/
theorem spellings_normalized (ha : parse text = .ok a) (hb : parse text' = .ok b) :
    a.IsSpelledBy text ∧ (∀ spelling, a.IsSpelledBy spelling → parse spelling = .ok a) ∧
    Uuid.IsCanonical a.text.toList ∧ a.simple.toList = a.text.toList.filter (· ≠ '-') ∧
    parse a.text = .ok a ∧ parse a.simple = .ok a ∧
    ((parse text : Except IdentError (Ident role)) = parse text' ↔ a.text = b.text) ∧
    compare a b = compare a.uuid.bytes b.uuid.bytes ∧
    compareBytes a.text b.text = compare a b ∧ compareBytes a.simple b.simple = compare a b := by
  have heq : (parse text : Except IdentError (Ident role)) = parse text' ↔ a.text = b.text := by
    rw [ha, hb, Except.ok.injEq]
    exact ⟨congrArg Ident.text, text_injective⟩
  have hbytes : compare a b = compare a.uuid.bytes b.uuid.bytes :=
    (Uuid.compare_bytes a.uuid b.uuid).symm
  exact ⟨parse_eq_ok_iff.1 ha, fun _ => parse_eq_ok_iff.2, a.uuid.isCanonical_hyphenated,
    a.uuid.toList_simple, a.parse_text, a.parse_simple, heq, hbytes, compareBytes_text a b,
    compareBytes_simple a b⟩

/-- A URN in capitals between blanks, and the digits of a later identifier. -/
theorem spellings_normalized_urn :
    let a : ChannelId := ⟨⟨0xdeadbeef00000000decafbad12345678⟩⟩
    let b : ChannelId := ⟨⟨0xdeadbeef00000000decafbad12345679⟩⟩
    parse " URN:UUID:DEADBEEF-0000-0000-DECA-FBAD12345678\n" = .ok a ∧
    parse "deadbeef00000000DECAFBAD12345679" = .ok b ∧
    Uuid.IsCanonical a.text.toList ∧ a.text = "deadbeef-0000-0000-deca-fbad12345678" ∧
    parse a.simple = .ok a ∧ a.text ≠ b.text ∧ compareBytes a.text b.text = .lt ∧
    compareBytes a.simple b.simple = .lt := by
  intro a b
  have ha : parse " URN:UUID:DEADBEEF-0000-0000-DECA-FBAD12345678\n" = .ok a := by decide +kernel
  have hb : parse "deadbeef00000000DECAFBAD12345679" = .ok b := by decide +kernel
  have hlt : compare a b = .lt := by decide
  obtain ⟨-, -, hcanonical, -, -, hsimple, heq, -, htext, hdigits⟩ := spellings_normalized ha hb
  have hne : (parse " URN:UUID:DEADBEEF-0000-0000-DECA-FBAD12345678\n" :
      Except IdentError ChannelId) ≠ parse "deadbeef00000000DECAFBAD12345679" := by
    rw [ha, hb]
    decide
  exact ⟨ha, hb, hcanonical, by decide +kernel, hsimple, mt heq.2 hne, htext.trans hlt,
    hdigits.trans hlt⟩

end Ident

end PushQueue
