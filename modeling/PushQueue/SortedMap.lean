/-!
Finite maps kept as lists in strictly ascending key order. The order makes the list canonical: two
maps with the same look-ups are equal (`SortedMap.ext_get?`), and a range read is a sublist.
-/

namespace PushQueue

/-- Entries in strictly ascending key order, so that no key occurs twice. -/
structure SortedMap (κ ν : Type) [Ord κ] where
  entries : List (κ × ν)
  ascending : entries.Pairwise fun a b => compare a.1 b.1 = .lt

namespace SortedMap

variable {κ ν : Type} [Ord κ]

theorem ext {m₁ m₂ : SortedMap κ ν} (h : m₁.entries = m₂.entries) : m₁ = m₂ := by
  cases m₁; cases m₂; cases h; rfl

instance [DecidableEq κ] [DecidableEq ν] : DecidableEq (SortedMap κ ν) := fun m₁ m₂ =>
  decidable_of_iff (m₁.entries = m₂.entries) ⟨ext, fun h => h ▸ rfl⟩

/-- Put an entry at its place, or over the entry with its key. -/
def insertEntry (k : κ) (v : ν) : List (κ × ν) → List (κ × ν)
  | [] => [(k, v)]
  | (k', v') :: rest =>
    match compare k k' with
    | .lt => (k, v) :: (k', v') :: rest
    | .eq => (k, v) :: rest
    | .gt => (k', v') :: insertEntry k v rest

theorem mem_of_mem_insertEntry {k : κ} {v : ν} {e : κ × ν} {l : List (κ × ν)}
    (h : e ∈ insertEntry k v l) : e = (k, v) ∨ e ∈ l := by
  induction l with
  | nil => simpa [insertEntry] using h
  | cons hd tl ih =>
    obtain ⟨k', v'⟩ := hd
    rw [insertEntry] at h
    split at h
    · simpa using h
    · rcases List.mem_cons.1 h with h | h
      · exact .inl h
      · exact .inr (List.mem_cons_of_mem _ h)
    · rcases List.mem_cons.1 h with h | h
      · exact .inr (h ▸ List.mem_cons_self)
      · exact (ih h).imp_right (List.mem_cons_of_mem _)

theorem pairwise_insertEntry [Std.TransOrd κ] [Std.LawfulEqOrd κ] (k : κ) (v : ν)
    {l : List (κ × ν)} (h : l.Pairwise fun a b => compare a.1 b.1 = .lt) :
    (insertEntry k v l).Pairwise fun a b => compare a.1 b.1 = .lt := by
  induction l with
  | nil => simp [insertEntry]
  | cons hd tl ih =>
    obtain ⟨k', v'⟩ := hd
    obtain ⟨hhd, htl⟩ := List.pairwise_cons.1 h
    rw [insertEntry]
    split
    next hlt =>
      refine List.pairwise_cons.2 ⟨fun e he => ?_, h⟩
      rcases List.mem_cons.1 he with rfl | he
      · exact hlt
      · exact Std.TransCmp.lt_trans hlt (hhd e he)
    next heq =>
      have : k = k' := Std.LawfulEqCmp.eq_of_compare heq
      subst this
      exact List.pairwise_cons.2 ⟨hhd, htl⟩
    next hgt =>
      refine List.pairwise_cons.2 ⟨fun e he => ?_, ih htl⟩
      rcases mem_of_mem_insertEntry he with rfl | he
      · exact Std.OrientedCmp.lt_of_gt hgt
      · exact hhd e he

def find? [DecidableEq κ] (k : κ) : List (κ × ν) → Option ν
  | [] => none
  | (k', v) :: rest => if k' = k then some v else find? k rest

def empty : SortedMap κ ν := ⟨[], .nil⟩

instance : EmptyCollection (SortedMap κ ν) := ⟨empty⟩
instance : Inhabited (SortedMap κ ν) := ⟨empty⟩

def get? [DecidableEq κ] (m : SortedMap κ ν) (k : κ) : Option ν := find? k m.entries

def contains [DecidableEq κ] (m : SortedMap κ ν) (k : κ) : Bool := (m.get? k).isSome

def insert [Std.TransOrd κ] [Std.LawfulEqOrd κ] (m : SortedMap κ ν) (k : κ) (v : ν) :
    SortedMap κ ν :=
  ⟨insertEntry k v m.entries, pairwise_insertEntry k v m.ascending⟩

def filter (m : SortedMap κ ν) (p : κ → ν → Bool) : SortedMap κ ν :=
  ⟨m.entries.filter fun e => p e.1 e.2, m.ascending.filter _⟩

def erase [DecidableEq κ] (m : SortedMap κ ν) (k : κ) : SortedMap κ ν :=
  m.filter fun k' _ => decide (k' ≠ k)

def keys (m : SortedMap κ ν) : List κ := m.entries.map Prod.fst

def size (m : SortedMap κ ν) : Nat := m.entries.length

/-- Insert the entries in order; of two with one key the later stays. -/
def ofList [Std.TransOrd κ] [Std.LawfulEqOrd κ] (l : List (κ × ν)) : SortedMap κ ν :=
  l.foldl (fun m e => m.insert e.1 e.2) empty

section Lookup

variable [DecidableEq κ]

theorem find?_insertEntry [Std.TransOrd κ] [Std.LawfulEqOrd κ] (k k' : κ) (v : ν)
    (l : List (κ × ν)) :
    find? k' (insertEntry k v l) = if k = k' then some v else find? k' l := by
  induction l with
  | nil => rfl
  | cons hd tl ih =>
    obtain ⟨k₀, v₀⟩ := hd
    rw [insertEntry]
    split
    · rfl
    next heq =>
      have : k = k₀ := Std.LawfulEqCmp.eq_of_compare heq
      subst this
      by_cases h : k = k' <;> simp [find?, h]
    next hgt =>
      rw [find?, ih, find?]
      by_cases h : k₀ = k'
      · subst h
        have : k ≠ k₀ := by
          rintro rfl
          simp at hgt
        simp [this]
      · simp [h]

theorem find?_filter (p : κ → ν → Bool) (k : κ) {l : List (κ × ν)}
    [Std.TransOrd κ] [Std.LawfulEqOrd κ]
    (h : l.Pairwise fun a b => compare a.1 b.1 = .lt) :
    find? k (l.filter fun e => p e.1 e.2) = (find? k l).filter (p k) := by
  have absent : ∀ {tl : List (κ × ν)}, (∀ e ∈ tl, compare k e.1 = .lt) → find? k tl = none := by
    intro tl
    induction tl with
    | nil => intro _; rfl
    | cons hd tl ih =>
      intro hlt
      have hne : hd.1 ≠ k := by
        rintro rfl
        have := hlt hd List.mem_cons_self
        simp at this
      rw [find?, if_neg hne]
      exact ih fun e he => hlt e (List.mem_cons_of_mem _ he)
  induction l with
  | nil => rfl
  | cons hd tl ih =>
    obtain ⟨k₀, v₀⟩ := hd
    obtain ⟨hhd, htl⟩ := List.pairwise_cons.1 h
    rw [List.filter_cons]
    split
    next hp =>
      rw [find?, find?]
      split
      next hk => subst hk; simp [Option.filter, hp]
      next => exact ih htl
    next hp =>
      rw [find?]
      split
      next hk =>
        subst hk
        rw [ih htl, absent hhd]
        simp [Option.filter, hp]
      next => exact ih htl

@[simp] theorem get?_empty (k : κ) : (empty : SortedMap κ ν).get? k = none := rfl

variable [Std.TransOrd κ] [Std.LawfulEqOrd κ]

theorem get?_insert (m : SortedMap κ ν) (k k' : κ) (v : ν) :
    (m.insert k v).get? k' = if k = k' then some v else m.get? k' :=
  find?_insertEntry k k' v m.entries

theorem get?_filter (m : SortedMap κ ν) (p : κ → ν → Bool) (k : κ) :
    (m.filter p).get? k = (m.get? k).filter (p k) :=
  find?_filter p k m.ascending

theorem get?_erase (m : SortedMap κ ν) (k k' : κ) :
    (m.erase k).get? k' = if k = k' then none else m.get? k' := by
  rw [erase, get?_filter]
  by_cases h : k = k'
  · subst h; cases m.get? k <;> simp [Option.filter]
  · have : k' ≠ k := Ne.symm h
    cases m.get? k' <;> simp [Option.filter, h, this]

omit [Std.TransOrd κ] in
theorem mem_entries_iff (m : SortedMap κ ν) (k : κ) (v : ν) :
    (k, v) ∈ m.entries ↔ m.get? k = some v := by
  obtain ⟨l, h⟩ := m
  simp only [get?]
  induction l with
  | nil => simp [find?]
  | cons hd tl ih =>
    obtain ⟨k₀, v₀⟩ := hd
    obtain ⟨hhd, htl⟩ := List.pairwise_cons.1 h
    rw [find?, List.mem_cons]
    by_cases hk : k₀ = k
    · subst hk
      have hnot : (k₀, v) ∉ tl := by
        intro hmem
        have := hhd _ hmem
        simp at this
      simp [hnot, eq_comm]
    · have : (k, v) ≠ (k₀, v₀) := by
        intro he
        exact hk (congrArg Prod.fst he).symm
      simp [this, hk, ih htl]

/-- A map is its look-ups. -/
theorem ext_get? {m₁ m₂ : SortedMap κ ν} (h : ∀ k, m₁.get? k = m₂.get? k) : m₁ = m₂ := by
  have hmem : ∀ e, e ∈ m₁.entries ↔ e ∈ m₂.entries := by
    intro e
    rw [show e = (e.1, e.2) from rfl, mem_entries_iff, mem_entries_iff, h]
  obtain ⟨l₁, h₁⟩ := m₁
  obtain ⟨l₂, h₂⟩ := m₂
  congr
  clear h
  simp only at hmem
  induction l₁ generalizing l₂ with
  | nil =>
    cases l₂ with
    | nil => rfl
    | cons a l₂ => exact absurd ((hmem a).2 List.mem_cons_self) (by simp)
  | cons a l₁ ih =>
    cases l₂ with
    | nil => exact absurd ((hmem a).1 List.mem_cons_self) (by simp)
    | cons b l₂ =>
      obtain ⟨ha, hl₁⟩ := List.pairwise_cons.1 h₁
      obtain ⟨hb, hl₂⟩ := List.pairwise_cons.1 h₂
      have hab : a = b := by
        rcases List.mem_cons.1 ((hmem a).1 List.mem_cons_self) with h | h
        · exact h
        · rcases List.mem_cons.1 ((hmem b).2 List.mem_cons_self) with k | k
          · exact k.symm
          · have := Std.TransCmp.lt_trans (hb a h) (ha b k)
            simp at this
      subst hab
      congr 1
      refine ih hl₁ l₂ hl₂ fun e => ⟨fun he => ?_, fun he => ?_⟩
      · rcases List.mem_cons.1 ((hmem e).1 (List.mem_cons_of_mem _ he)) with rfl | h
        · have := ha e he
          simp at this
        · exact h
      · rcases List.mem_cons.1 ((hmem e).2 (List.mem_cons_of_mem _ he)) with rfl | h
        · have := hb e he
          simp at this
        · exact h

/-- Writing what is there changes nothing. -/
theorem insert_of_get? {m : SortedMap κ ν} {k : κ} {v : ν} (h : m.get? k = some v) :
    m.insert k v = m := by
  refine ext_get? fun k' => ?_
  rw [get?_insert]
  split
  next heq => rw [← heq, h]
  next => rfl

end Lookup

end SortedMap

abbrev SortedSet (κ : Type) [Ord κ] := SortedMap κ Unit

namespace SortedSet

variable {κ : Type} [Ord κ] [DecidableEq κ]

def toList (s : SortedSet κ) : List κ := s.keys

def isEmpty (s : SortedSet κ) : Bool := s.entries.isEmpty

def diff (s t : SortedSet κ) : SortedSet κ := s.filter fun k _ => !t.contains k

variable [Std.TransOrd κ] [Std.LawfulEqOrd κ]

def ofList (l : List κ) : SortedSet κ := SortedMap.ofList (l.map fun k => (k, ()))

def singleton (k : κ) : SortedSet κ := SortedMap.empty.insert k ()

def union (s t : SortedSet κ) : SortedSet κ :=
  t.entries.foldl (fun u e => u.insert e.1 ()) s

end SortedSet

end PushQueue
