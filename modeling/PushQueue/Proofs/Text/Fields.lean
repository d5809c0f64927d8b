import Mathlib.Data.List.TakeWhile
import PushQueue.Text.Blank
import PushQueue.Text.Fields
import PushQueue.Proofs.Text.ByteOrder

/-!
Composed texts. Numerals, and fields between separators, are read back from what is written, and
separators at the same places leave byte order to the fields.
-/

namespace PushQueue.Text

theorem hexValue?_digitChar {d : Nat} (h : d < 16) : hexValue? (Nat.digitChar d) = some d := by
  have all : ∀ d : Fin 16, hexValue? (Nat.digitChar d) = some d.val := by decide
  exact all ⟨d, h⟩

theorem readHex?_append_singleton (cs : List Char) (c : Char) :
    readHex? (cs ++ [c]) =
      (readHex? cs).bind fun n => (hexValue? c).map fun d => 16 * n + d := by
  unfold readHex?
  rw [List.foldlM_append]
  simp

theorem readHex?_padded {width n : Nat} (h : n < 16 ^ (width + 1)) :
    readHex? (padded 16 (width + 1) n) = some n := by
  induction width generalizing n with
  | zero =>
    have hn : n < 16 := by simpa using h
    rw [padded_one hn]
    simp [readHex?, hexValue?_digitChar hn]
  | succ width ih =>
    have hd : n / 16 < 16 ^ (width + 1) := by
      rw [Nat.pow_succ] at h
      omega
    rw [padded_succ (by decide), readHex?_append_singleton, ih hd,
      hexValue?_digitChar (Nat.mod_lt n (by decide))]
    simp [Nat.div_add_mod]

theorem readNat?_toDigits (n : Nat) : readNat? (Nat.toDigits 10 n) = some n := by
  have hpadded : padded 10 0 n = Nat.toDigits 10 n := by simp [padded, List.leftpad]
  rw [← hpadded, readNat?_padded]

theorem readInt?_toString (n : Int) : readInt? (toString n).toList = some n := by
  cases n with
  | ofNat n =>
    have htext : (toString (Int.ofNat n)).toList = Nat.toDigits 10 n := String.toList_ofList
    have hsign : ∀ c rest, Nat.toDigits 10 n = c :: rest → c ≠ '-' ∧ c ≠ '+' := by
      intro c rest hdigits
      have hmem : c ∈ Nat.toDigits 10 n := by simp [hdigits]
      have hdigit : c.isDigit := Nat.isDigit_of_mem_toDigits (by decide) (by decide) hmem
      constructor <;> rintro rfl <;> cases hdigit
    have hread := readNat?_toDigits n
    rw [htext]
    unfold readInt?
    split
    next rest h => exact absurd rfl (hsign _ _ h).1
    next rest h => exact absurd rfl (hsign _ _ h).2
    next => rw [hread]; rfl
  | negSucc n =>
    have htext : (toString (Int.negSucc n)).toList = '-' :: Nat.toDigits 10 (n + 1) := by
      change ("-" ++ Nat.repr (n + 1)).toList = _
      simp [Nat.repr]
    rw [htext, readInt?, readNat?_toDigits]
    rfl

theorem readUnsigned?_of_isDigit {cs : List Char} (h : ∀ c ∈ cs, c.isDigit) :
    readUnsigned? cs = readNat? cs := by
  unfold readUnsigned?
  split
  next rest => cases h '+' List.mem_cons_self
  next => rfl

theorem eq_append_of_cut? {sep : Char} {cs before rest : List Char}
    (h : cut? sep cs = some (before, rest)) : cs = before ++ sep :: rest := by
  have hhead := List.head?_dropWhile_not (fun c => decide (c ≠ sep)) cs
  unfold cut? at h
  split at h
  next => cases h
  next c rest' hdrop =>
    obtain ⟨rfl, rfl⟩ := Prod.mk.inj (Option.some.inj h)
    rw [hdrop] at hhead
    obtain rfl : c = sep := by simpa using hhead
    rw [← hdrop, List.takeWhile_append_dropWhile]

theorem joinFields_cons_cons (sep : Char) (x y : List Char) (rest : List (List Char)) :
    joinFields sep (x :: y :: rest) = x ++ sep :: joinFields sep (y :: rest) := rfl

/-- A list of fields is read back from its joined form if no field holds the separator. -/
theorem fields_joinFields {sep : Char} {parts : List (List Char)} (hne : parts ≠ [])
    (h : ∀ part ∈ parts, sep ∉ part) : fields sep (joinFields sep parts) = parts := by
  induction parts with
  | nil => contradiction
  | cons part rest ih =>
    have hpart := h part List.mem_cons_self
    cases rest with
    | nil => exact fields_eq_singleton hpart
    | cons next rest =>
      rw [joinFields_cons_cons, fields_append_cons hpart,
        ih (by simp) fun p hp => h p (List.mem_cons_of_mem _ hp)]

theorem sep_notMem_of_mem_fields {sep : Char} {cs field : List Char} (h : field ∈ fields sep cs) :
    sep ∉ field := by
  induction cs generalizing field with
  | nil =>
    rw [fields, List.mem_singleton] at h
    simp [h]
  | cons c cs ih =>
    by_cases hc : c = sep
    · rw [fields, if_pos hc, List.mem_cons] at h
      rcases h with rfl | h
      · simp
      · exact ih h
    · rw [fields, if_neg hc] at h
      cases hfields : fields sep cs with
      | nil => exact absurd hfields (fields_ne_nil sep cs)
      | cons first rest =>
        rw [hfields] at h ih
        rcases List.mem_cons.1 h with rfl | h
        · rw [List.mem_cons, not_or]
          exact ⟨Ne.symm hc, ih List.mem_cons_self⟩
        · exact ih (List.mem_cons_of_mem _ h)

theorem append_sep_prefix_iff {sep : Char} {start field : List Char} (hstart : sep ∉ start)
    (hfield : sep ∉ field) (rest : List Char) :
    start ++ [sep] <+: field ++ sep :: rest ↔ start = field := by
  constructor
  · rintro ⟨rest', heq⟩
    have hfields := congrArg (fields sep) heq
    rw [List.append_assoc, List.singleton_append, fields_append_cons hstart,
      fields_append_cons hfield] at hfields
    exact (List.cons.inj hfields).1
  · rintro rfl
    exact ⟨rest, by simp⟩

theorem mem_joinFields {sep c : Char} {parts : List (List Char)} (h : c ∈ joinFields sep parts) :
    c = sep ∨ c ∈ parts.flatten := by
  induction parts with
  | nil => simp [joinFields] at h
  | cons part rest ih =>
    cases rest with
    | nil => exact .inr (by simpa [joinFields] using h)
    | cons next rest =>
      rw [joinFields_cons_cons, List.mem_append, List.mem_cons] at h
      rw [List.flatten_cons, List.mem_append]
      rcases h with h | rfl | h
      · exact .inr (.inl h)
      · exact .inl rfl
      · exact (ih h).imp_right .inr

theorem compare_ascii_joinFields (sep : Char) {xs ys : List (List Char)}
    (h : xs.map List.length = ys.map List.length) :
    compare (ascii (joinFields sep xs)) (ascii (joinFields sep ys)) =
      compare (ascii xs.flatten) (ascii ys.flatten) := by
  induction xs generalizing ys with
  | nil =>
    have hys : ys = [] := by simpa using h.symm
    rw [hys]
    rfl
  | cons x xs ih =>
    cases ys with
    | nil => simp at h
    | cons y ys =>
      simp only [List.map_cons, List.cons.injEq] at h
      obtain ⟨hlen, hrest⟩ := h
      have hascii : (ascii x).length = (ascii y).length := by
        simpa only [length_ascii] using hlen
      have happend : ∀ cs ds : List Char, compare (ascii (x ++ cs)) (ascii (y ++ ds)) =
          (compare (ascii x) (ascii y)).then (compare (ascii cs) (ascii ds)) := by
        intro cs ds
        simp only [ascii, List.map_append] at hascii ⊢
        exact compare_append_of_length_eq hascii _ _
      cases xs with
      | nil =>
        have hys : ys = [] := by simpa using hrest.symm
        subst hys
        simp [joinFields]
      | cons x' xs =>
        cases ys with
        | nil => simp at hrest
        | cons y' ys =>
          have hx : (x :: x' :: xs).flatten = x ++ (x' :: xs).flatten := rfl
          have hy : (y :: y' :: ys).flatten = y ++ (y' :: ys).flatten := rfl
          rw [joinFields_cons_cons, joinFields_cons_cons, hx, hy, happend, happend, ← ih hrest]
          simp [ascii]

def cuts : List Nat → List Nat
  | [] | [_] => []
  | n :: rest => n :: (cuts rest).map (n + 1 + ·)

theorem getElem?_joinFields_eq_sep_iff {sep : Char} {parts : List (List Char)} {i : Nat}
    (h : ∀ part ∈ parts, sep ∉ part) :
    (joinFields sep parts)[i]? = some sep ↔ i ∈ cuts (parts.map List.length) := by
  have hfield {part : List Char} (hpart : sep ∉ part) (i : Nat) : part[i]? ≠ some sep :=
    fun heq => hpart (List.mem_of_getElem? heq)
  induction parts generalizing i with
  | nil => simp [joinFields, cuts]
  | cons part rest ih =>
    obtain ⟨hpart, hrest⟩ := List.forall_mem_cons.1 h
    cases rest with
    | nil => simp [joinFields, cuts, hfield hpart]
    | cons next rest =>
      have hcuts : cuts ((part :: next :: rest).map List.length) =
          part.length :: (cuts ((next :: rest).map List.length)).map (part.length + 1 + ·) := rfl
      rw [joinFields_cons_cons, hcuts, List.mem_cons, List.mem_map]
      rcases Nat.lt_trichotomy i part.length with hlt | rfl | hlt
      · rw [List.getElem?_append_left hlt]
        refine iff_of_false (hfield hpart i) ?_
        rintro (heq | ⟨j, -, heq⟩) <;> omega
      · simp
      · obtain ⟨j, rfl⟩ := Nat.exists_eq_add_of_lt hlt
        have hindex : part.length + j + 1 - part.length = j + 1 := by omega
        rw [List.getElem?_append_right (by omega), hindex, List.getElem?_cons_succ]
        refine (ih hrest).trans ?_
        constructor
        · exact fun hj => .inr ⟨j, hj, by omega⟩
        · rintro (heq | ⟨j', hj', heq⟩)
          · omega
          · obtain rfl : j' = j := by omega
            exact hj'

theorem filter_joinFields {sep : Char} {parts : List (List Char)}
    (h : ∀ part ∈ parts, sep ∉ part) : (joinFields sep parts).filter (· ≠ sep) = parts.flatten := by
  have hfield {part : List Char} (hpart : sep ∉ part) : part.filter (· ≠ sep) = part :=
    List.filter_eq_self.2 fun c hc => decide_eq_true fun heq => hpart (heq ▸ hc)
  induction parts with
  | nil => rfl
  | cons part rest ih =>
    obtain ⟨hpart, hrest⟩ := List.forall_mem_cons.1 h
    cases rest with
    | nil => simpa [joinFields] using hfield hpart
    | cons next rest =>
      rw [joinFields_cons_cons, List.filter_append, List.filter_cons_of_neg (by simp), ih hrest,
        hfield hpart]
      rfl

theorem trimBlanks_of_all {cs : List Char} (h : ∀ c ∈ cs, isBlank c = false) :
    trimBlanks cs = cs := by
  have hdrop : ∀ ds : List Char, (∀ c ∈ ds, isBlank c = false) → ds.dropWhile isBlank = ds := by
    intro ds hds
    cases ds with
    | nil => rfl
    | cons d ds => simp [hds d List.mem_cons_self]
  unfold trimBlanks
  rw [hdrop cs h, hdrop cs.reverse (fun c hc => h c (List.mem_reverse.1 hc)), List.reverse_reverse]

theorem trimBlanks_append {before cs after : List Char} (hbefore : ∀ c ∈ before, isBlank c)
    (hafter : ∀ c ∈ after, isBlank c) (hcs : ∀ c ∈ cs, isBlank c = false) (hne : cs ≠ []) :
    trimBlanks (before ++ cs ++ after) = cs := by
  have hdrop {start : List Char} (hstart : ∀ c ∈ start, isBlank c) {ds : List Char} (hds : ds ≠ [])
      (hhead : ∀ d ∈ ds.head?, isBlank d = false) (rest : List Char) :
      (start ++ (ds ++ rest)).dropWhile isBlank = ds ++ rest := by
    obtain ⟨d, ds, rfl⟩ := List.exists_cons_of_ne_nil hds
    rw [List.dropWhile_append_of_pos hstart, List.cons_append,
      List.dropWhile_cons_of_neg (by simp [hhead d rfl])]
  unfold trimBlanks
  rw [List.append_assoc, hdrop hbefore hne fun d hd => hcs d (List.mem_of_mem_head? hd),
    List.reverse_append, ← List.append_nil cs.reverse,
    hdrop (fun c hc => hafter c (List.mem_reverse.1 hc)) (by simpa using hne)
      fun d hd => hcs d (List.mem_reverse.1 (List.mem_of_mem_head? hd))]
  simp

theorem exists_blanks_around (cs : List Char) :
    ∃ before after, cs = before ++ trimBlanks cs ++ after ∧ (∀ c ∈ before, isBlank c) ∧
      ∀ c ∈ after, isBlank c := by
  let rest := (cs.dropWhile isBlank).reverse
  refine ⟨cs.takeWhile isBlank, (rest.takeWhile isBlank).reverse, ?_, fun c hc => ?_,
    fun c hc => ?_⟩
  · have hrest : trimBlanks cs ++ (rest.takeWhile isBlank).reverse = cs.dropWhile isBlank := by
      rw [trimBlanks, ← List.reverse_append, List.takeWhile_append_dropWhile, List.reverse_reverse]
    rw [List.append_assoc, hrest, List.takeWhile_append_dropWhile]
  · exact List.mem_takeWhile_imp hc
  · exact List.mem_takeWhile_imp (List.mem_reverse.1 hc)

theorem isDigit_spec {c : Char} (h : c.isDigit) : c.toNat < 128 ∧ c ≠ ':' := by
  rw [Char.isDigit_iff_toNat] at h
  have h9 : '9'.toNat = 57 := rfl
  refine ⟨by omega, ?_⟩
  rintro rfl
  have hcolon : ':'.toNat = 58 := rfl
  omega

end PushQueue.Text
