import PushQueue.StoreError

/-! Results that may be errors: as options, and in lists. -/

namespace PushQueue

variable {ε α β : Type}

theorem toOption_eq_some_iff {x : Except ε α} {a : α} : x.toOption = some a ↔ x = .ok a := by
  cases x <;> simp [Except.toOption]

theorem toOption_eq_none_iff {x : Except ε α} :
    x.toOption = none ↔ ∃ error, x = .error error := by
  cases x <;> simp [Except.toOption]

@[simp] theorem toOption_orStore (x : Except KeyError α) :
    (KeyError.orStore x).toOption = x.toOption := by
  cases x <;> rfl

theorem orStore_eq_ok_iff {x : Except KeyError α} {a : α} :
    KeyError.orStore x = .ok a ↔ x = .ok a := by
  cases x <;> simp [KeyError.orStore]

theorem map_eq_ok_iff {f : α → β} {x : Except ε α} {b : β} :
    x.map f = .ok b ↔ ∃ a, x = .ok a ∧ f a = b := by
  cases x <;> simp [Except.map]

theorem mapM_eq_ok {f : α → Except ε β} {l : List α} {bs : List β}
    (h : l.map f = bs.map Except.ok) : l.mapM f = .ok bs := by
  induction l generalizing bs with
  | nil =>
    cases bs with
    | nil => rfl
    | cons b bs => cases h
  | cons a l ih =>
    cases bs with
    | nil => cases h
    | cons b bs =>
      obtain ⟨ha, hl⟩ := List.cons.inj h
      rw [List.mapM_cons, ha, ih hl]
      rfl

theorem exists_mapM_eq_ok {f : α → Except ε β} {l : List α} (h : ∀ a ∈ l, ∃ b, f a = .ok b) :
    ∃ bs, l.mapM f = .ok bs := by
  induction l with
  | nil => exact ⟨[], rfl⟩
  | cons a l ih =>
    obtain ⟨⟨b, hb⟩, hl⟩ := List.forall_mem_cons.1 h
    obtain ⟨bs, hbs⟩ := ih hl
    refine ⟨b :: bs, ?_⟩
    rw [List.mapM_cons, hb, hbs]
    rfl

theorem mapM_eq_error {f : α → Except ε β} {before after : List α} {a : α} {error : ε}
    (hbefore : ∀ b ∈ before, ∃ c, f b = .ok c) (ha : f a = .error error) :
    (before ++ a :: after).mapM f = .error error := by
  obtain ⟨bs, hbs⟩ := exists_mapM_eq_ok hbefore
  rw [List.mapM_append, hbs, List.mapM_cons, ha]
  rfl

theorem map_eq_of_mapM_eq_ok {f : α → Except ε β} {l : List α} {bs : List β}
    (h : l.mapM f = .ok bs) : l.map f = bs.map Except.ok := by
  induction l generalizing bs with
  | nil =>
    cases h
    rfl
  | cons a l ih =>
    rw [List.mapM_cons] at h
    cases ha : f a with
    | error error =>
      rw [ha] at h
      cases h
    | ok b =>
      cases hl : l.mapM f with
      | error error =>
        rw [ha, hl] at h
        cases h
      | ok bs' =>
        rw [ha, hl] at h
        cases h
        rw [List.map_cons, ha, ih hl]
        rfl

theorem mem_of_mapM_eq_ok {f : α → Except ε β} {l : List α} {bs : List β}
    (h : l.mapM f = .ok bs) {b : β} : b ∈ bs ↔ ∃ a ∈ l, f a = .ok b := by
  have hmap := map_eq_of_mapM_eq_ok h
  have hok : b ∈ bs ↔ Except.ok b ∈ bs.map (Except.ok (ε := ε)) := by simp
  rw [hok, ← hmap, List.mem_map]

theorem mapM_take_eq_ok {f : α → Except ε β} {l : List α} {bs : List β}
    (h : l.map f = bs.map Except.ok) (n : Nat) : (l.take n).mapM f = .ok (bs.take n) := by
  apply mapM_eq_ok
  rw [List.map_take, h, List.map_take]

end PushQueue
