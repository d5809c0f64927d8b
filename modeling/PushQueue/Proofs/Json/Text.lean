import PushQueue.Json.Printer
import PushQueue.Json.Reader
import PushQueue.Proofs.Json.Members
import PushQueue.Proofs.Text.Fields

/-!
The JSON text of strings, of lists of strings and of maps between strings. Whatever characters they
hold, the text is read back as what it was written from.
-/

namespace PushQueue.Json

open Text

section Strings

variable {c e : Char} {done rest : List Char}

theorem escapeChar_cases (c : Char) :
    (∃ e, escapeChar c = ['\\', e] ∧ e ≠ 'u' ∧ readString.escaped? e = some c) ∨
    (c.toNat < 0x20 ∧ escapeChar c = ['\\', 'u'] ++ padded 16 4 c.toNat) ∨
    (c ≠ '\x22' ∧ c ≠ '\\' ∧ ¬ c.toNat < 0x20 ∧ escapeChar c = [c]) := by
  unfold escapeChar
  split
  next h => exact .inl ⟨_, rfl, by decide, by rw [h]; rfl⟩
  next hquote =>
  split
  next h => exact .inl ⟨_, rfl, by decide, by rw [h]; rfl⟩
  next hescape =>
  split
  next h => exact .inl ⟨_, rfl, by decide, by rw [h]; rfl⟩
  split
  next h => exact .inl ⟨_, rfl, by decide, by rw [h]; rfl⟩
  split
  next h => exact .inl ⟨_, rfl, by decide, by rw [h]; rfl⟩
  split
  next h => exact .inl ⟨_, rfl, by decide, by rw [h]; rfl⟩
  split
  next h => exact .inl ⟨_, rfl, by decide, by rw [h]; rfl⟩
  split
  next hlow => exact .inr (.inl ⟨hlow, rfl⟩)
  next hhigh => exact .inr (.inr ⟨hquote, hescape, hhigh, rfl⟩)

theorem readString_letter (hletter : e ≠ 'u') (h : readString.escaped? e = some c) :
    readString done ('\\' :: e :: rest) = readString (c :: done) rest := by
  rw [readString]
  · rw [h]
  · rintro _ _ _ _ _ rfl _
    exact hletter rfl

theorem readString_code (h : c.toNat < 0x20) :
    readString done ('\\' :: 'u' :: (padded 16 4 c.toNat ++ rest)) =
      readString (c :: done) rest := by
  have hlt : c.toNat < 16 ^ 4 := Nat.lt_trans h (by decide)
  obtain ⟨w, x, y, z, hdigits⟩ : ∃ w x y z, padded 16 4 c.toNat = [w, x, y, z] :=
    List.length_eq_four.1 (length_padded_of_lt (by decide) hlt)
  have hread : readCodeUnit? w x y z = some c.toNat := by
    rw [readCodeUnit?, ← hdigits, readHex?_padded hlt]
  have hbelow : c.toNat < 0xD800 ∨ 0xDFFF < c.toNat := .inl (Nat.lt_trans h (by decide))
  rw [hdigits]
  simp only [List.cons_append, List.nil_append, readString, hread, if_pos hbelow, Char.ofNat_toNat]

theorem readString_plain (hquote : c ≠ '\x22') (hescape : c ≠ '\\') (h : ¬ c.toNat < 0x20) :
    readString done (c :: rest) = readString (c :: done) rest := by
  rw [readString]
  · exact if_neg h
  all_goals simp_all

theorem readString_escapeChar (c : Char) (done rest : List Char) :
    readString done (escapeChar c ++ rest) = readString (c :: done) rest := by
  rcases escapeChar_cases c with ⟨e, heq, hletter, he⟩ | ⟨hlow, heq⟩ | ⟨hquote, hescape, hhigh, heq⟩
  · rw [heq]
    exact readString_letter hletter he
  · rw [heq]
    exact readString_code hlow
  · rw [heq]
    exact readString_plain hquote hescape hhigh

theorem readString_escaped (s : String) (rest : List Char) :
    readString [] (s.toList.flatMap escapeChar ++ '\x22' :: rest) = some (s, rest) := by
  have hread (cs done : List Char) : readString done (cs.flatMap escapeChar ++ '\x22' :: rest) =
      some (String.ofList (done.reverse ++ cs), rest) := by
    induction cs generalizing done with
    | nil => rw [List.flatMap_nil, List.nil_append, readString, List.append_nil]
    | cons c cs ih =>
      rw [List.flatMap_cons, List.append_assoc, readString_escapeChar, ih, List.reverse_cons,
        List.append_assoc, List.singleton_append]
  rw [hread, List.reverse_nil, List.nil_append, String.ofList_toList]

theorem toList_stringText (s : String) :
    (stringText s).toList = '\x22' :: (s.toList.flatMap escapeChar ++ ['\x22']) := by
  rw [stringText, String.toList_ofList, List.singleton_append, List.cons_append]

end Strings

section Values

theorem skipSpace_cons {c : Char} (h : isSpace c = false) (rest : List Char) :
    skipSpace (c :: rest) = c :: rest :=
  List.dropWhile_cons_of_neg (by simp [h])

theorem readValue_stringText (fuel depth : Nat) (s : String) (rest : List Char) :
    readValue (fuel + 1) depth ((stringText s).toList ++ rest) = some (.string s, rest) := by
  rw [toList_stringText, List.cons_append, List.append_assoc, List.singleton_append, readValue,
    skipSpace_cons (by decide)]
  simp only [readString_escaped, Option.map_some]

theorem renderItems_strings (texts : List String) :
    renderItems (texts.map .string) = texts.map stringText := by
  induction texts with
  | nil => rfl
  | cons text texts ih => rw [List.map_cons, renderItems, ih, List.map_cons, render]

theorem renderMembers_strings (entries : List (String × String)) :
    renderMembers (entries.map fun e => (e.1, .string e.2)) =
      entries.map fun e => stringText e.1 ++ ":" ++ stringText e.2 := by
  induction entries with
  | nil => rfl
  | cons entry entries ih => rw [List.map_cons, renderMembers, ih, List.map_cons, render]

theorem length_le_length_intercalate (texts : List String) :
    texts.length ≤ (",".intercalate texts).toList.length + 1 := by
  rw [String.toList_intercalate]
  induction texts with
  | nil => exact Nat.zero_le _
  | cons text texts ih =>
    cases texts with
    | nil => exact Nat.le_add_left 1 _
    | cons text' texts =>
      rw [List.map_cons, List.map_cons, List.intercalate_cons_cons, ← List.map_cons]
      simp only [List.length_append, List.length_cons] at ih ⊢
      have hcomma : ",".toList.length = 1 := rfl
      omega

theorem exists_toList_intercalate (text : String) (texts : List String) :
    ∃ tail, (",".intercalate (text :: texts)).toList = text.toList ++ tail := by
  rw [String.toList_intercalate]
  cases texts with
  | nil => exact ⟨[], by simp⟩
  | cons text' texts =>
    rw [List.map_cons, List.map_cons, List.intercalate_cons_cons, List.append_assoc]
    exact ⟨_, rfl⟩

/-- The fuel of the reader is enough for as many items as the text has characters. -/
theorem parse?_eq_some {s : String} {n : Nat} {value : Json} (hn : n < 2 * s.toList.length)
    (hread : ∀ fuel, readValue (fuel + n + 2) maxDepth s.toList = some (value, [])) :
    parse? s = some value := by
  obtain ⟨fuel, hfuel⟩ := Nat.exists_eq_add_of_le' (show n + 2 ≤ 2 * s.toList.length + 1 by omega)
  simp only [parse?, hfuel, ← Nat.add_assoc, hread]
  rfl

section Items

theorem readItems_last (fuel depth : Nat) (s : String) (done : List Json) (rest : List Char) :
    readItems (fuel + 2) depth done ((stringText s).toList ++ ']' :: rest) =
      some (.array (done.reverse ++ [.string s]), rest) := by
  rw [readItems, readValue_stringText]
  simp only [skipSpace_cons (show isSpace ']' = false by decide), List.reverse_cons]

theorem readItems_comma (fuel depth : Nat) (s : String) (done : List Json) (rest : List Char) :
    readItems (fuel + 2) depth done ((stringText s).toList ++ ',' :: rest) =
      readItems (fuel + 1) depth (.string s :: done) rest := by
  rw [readItems, readValue_stringText]
  simp only [skipSpace_cons (show isSpace ',' = false by decide)]

/-- One unit of fuel is enough for each item, and one more for the value of the last. -/
theorem readItems_strings (fuel depth : Nat) (text : String) (texts : List String)
    (done : List Json) (rest : List Char) :
    readItems (fuel + texts.length + 2) depth done
        ((",".intercalate ((text :: texts).map stringText)).toList ++ ']' :: rest) =
      some (.array (done.reverse ++ (text :: texts).map .string), rest) := by
  induction texts generalizing text done with
  | nil =>
    rw [List.map_singleton, String.intercalate_singleton]
    exact readItems_last fuel depth text done rest
  | cons text' texts ih =>
    have hstep := readItems_comma (fuel + texts.length + 1) depth text done
      ((",".intercalate ((text' :: texts).map stringText)).toList ++ ']' :: rest)
    rw [ih, List.reverse_cons, List.append_assoc, List.singleton_append, ← List.map_cons] at hstep
    refine Eq.trans ?_ hstep
    simp [String.toList_intercalate, Nat.add_assoc]

theorem toList_render_strings (texts : List String) :
    (render (.list .string texts)).toList =
      '[' :: ((",".intercalate (texts.map stringText)).toList ++ [']']) := by
  rw [list, render, renderItems_strings, String.toList_append, String.toList_append]
  rfl

theorem readValue_strings (fuel depth : Nat) (texts : List String) (rest : List Char) :
    readValue (fuel + texts.length + 2) (depth + 2)
        ((render (.list .string texts)).toList ++ rest) =
      some (.list .string texts, rest) := by
  rw [toList_render_strings, List.cons_append, List.append_assoc, List.singleton_append, readValue,
    skipSpace_cons (by decide)]
  have hdepth : ¬ depth + 2 ≤ 1 := by omega
  simp only [if_neg hdepth]
  cases texts with
  | nil => rfl
  | cons text texts =>
    have hread := readItems_strings fuel (depth + 1) text texts [] rest
    obtain ⟨tail, htail⟩ : ∃ tail, (",".intercalate ((text :: texts).map stringText)).toList ++
        ']' :: rest = '\x22' :: tail := by
      obtain ⟨tail, htail⟩ := exists_toList_intercalate (stringText text) (texts.map stringText)
      rw [List.map_cons, htail, toList_stringText]
      exact ⟨_, rfl⟩
    rw [htail] at hread ⊢
    rw [skipSpace_cons (by decide)]
    exact hread

theorem parse?_render_strings (texts : List String) :
    parse? (render (.list .string texts)) = some (.list .string texts) := by
  have hlength := congrArg List.length (toList_render_strings texts)
  rw [List.length_cons, List.length_append, List.length_singleton] at hlength
  have hle := length_le_length_intercalate (texts.map stringText)
  rw [List.length_map] at hle
  refine parse?_eq_some (show texts.length < 2 * _ by omega) fun fuel => ?_
  rw [← List.append_nil (render _).toList]
  exact readValue_strings fuel 126 texts []

end Items

section Members

def memberText (entry : String × String) : String := stringText entry.1 ++ ":" ++ stringText entry.2

theorem toList_memberText_append (entry : String × String) (rest : List Char) :
    (memberText entry).toList ++ rest = '\x22' :: (entry.1.toList.flatMap escapeChar ++
      '\x22' :: ':' :: ((stringText entry.2).toList ++ rest)) := by
  simp [memberText, toList_stringText]

theorem readMembers_last (fuel depth : Nat) (entry : String × String) (done : List (String × Json))
    (rest : List Char) :
    readMembers (fuel + 2) depth done ((memberText entry).toList ++ '\x7d' :: rest) =
      some (ofMembers (done.reverse ++ [(entry.1, .string entry.2)]), rest) := by
  rw [toList_memberText_append, readMembers, skipSpace_cons (by decide)]
  simp only [readString_escaped, skipSpace_cons (show isSpace ':' = false by decide),
    readValue_stringText, skipSpace_cons (show isSpace '\x7d' = false by decide), List.reverse_cons]

theorem readMembers_comma (fuel depth : Nat) (entry : String × String) (done : List (String × Json))
    (rest : List Char) :
    readMembers (fuel + 2) depth done ((memberText entry).toList ++ ',' :: rest) =
      readMembers (fuel + 1) depth ((entry.1, .string entry.2) :: done) rest := by
  rw [toList_memberText_append, readMembers, skipSpace_cons (by decide)]
  simp only [readString_escaped, skipSpace_cons (show isSpace ':' = false by decide),
    readValue_stringText, skipSpace_cons (show isSpace ',' = false by decide)]

theorem readMembers_strings (fuel depth : Nat) (entry : String × String)
    (entries : List (String × String)) (done : List (String × Json)) (rest : List Char) :
    readMembers (fuel + entries.length + 2) depth done
        ((",".intercalate ((entry :: entries).map memberText)).toList ++ '\x7d' :: rest) =
      some (ofMembers (done.reverse ++ (entry :: entries).map fun e => (e.1, .string e.2)),
        rest) := by
  induction entries generalizing entry done with
  | nil =>
    rw [List.map_singleton, String.intercalate_singleton]
    exact readMembers_last fuel depth entry done rest
  | cons entry' entries ih =>
    have hstep := readMembers_comma (fuel + entries.length + 1) depth entry done
      ((",".intercalate ((entry' :: entries).map memberText)).toList ++ '\x7d' :: rest)
    rw [ih, List.reverse_cons, List.append_assoc, List.singleton_append] at hstep
    refine Eq.trans ?_ hstep
    simp [String.toList_intercalate, Nat.add_assoc]

theorem toList_render_stringMembers (entries : List (String × String)) :
    (render (.object (entries.map fun e => (e.1, .string e.2)))).toList =
      '\x7b' :: ((",".intercalate (entries.map memberText)).toList ++ ['\x7d']) := by
  rw [render, renderMembers_strings, String.toList_append, String.toList_append]
  rfl

theorem readValue_stringMembers (fuel depth : Nat) (entries : List (String × String))
    (rest : List Char) :
    readValue (fuel + entries.length + 2) (depth + 2)
        ((render (.object (entries.map fun e => (e.1, .string e.2)))).toList ++ rest) =
      some (ofMembers (entries.map fun e => (e.1, .string e.2)), rest) := by
  rw [toList_render_stringMembers, List.cons_append, List.append_assoc, List.singleton_append,
    readValue, skipSpace_cons (by decide)]
  have hdepth : ¬ depth + 2 ≤ 1 := by omega
  simp only [if_neg hdepth]
  cases entries with
  | nil => rfl
  | cons entry entries =>
    have hread := readMembers_strings fuel (depth + 1) entry entries [] rest
    obtain ⟨tail, htail⟩ : ∃ tail, (",".intercalate ((entry :: entries).map memberText)).toList ++
        '\x7d' :: rest = '\x22' :: tail := by
      obtain ⟨tail, htail⟩ := exists_toList_intercalate (memberText entry) (entries.map memberText)
      rw [List.map_cons, htail, List.append_assoc, toList_memberText_append]
      exact ⟨_, rfl⟩
    rw [htail] at hread ⊢
    rw [skipSpace_cons (by decide)]
    exact hread

theorem parse?_render_strings_of_perm {m : SortedMap String String}
    {entries : List (String × String)} (h : entries.Perm m.entries) :
    parse? (render (.object (entries.map fun e => (e.1, .string e.2)))) = some (ofStringMap m) := by
  have hlength := congrArg List.length (toList_render_stringMembers entries)
  rw [List.length_cons, List.length_append, List.length_singleton] at hlength
  have hle := length_le_length_intercalate (entries.map memberText)
  rw [List.length_map] at hle
  rw [← SortedMap.ofList_of_perm h, ← ofMembers_strings]
  refine parse?_eq_some (show entries.length < 2 * _ by omega) fun fuel => ?_
  rw [← List.append_nil (render _).toList]
  exact readValue_stringMembers fuel 126 entries []

end Members

end Values

end PushQueue.Json
