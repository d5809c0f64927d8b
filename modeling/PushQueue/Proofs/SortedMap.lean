import Mathlib.Data.Finset.Card
import Mathlib.Data.List.Basic
import PushQueue.SortedMap

/-!
Views of a sorted map. An embedding of ordered keys picks out the entries under its keys, and what
these hold is again a sorted map, in the same order. A view changes with the map: an insertion or
an erasure under a key of the view is one in the view, any other leaves it as it is.
-/

namespace PushQueue

structure KeyEmbedding (κ' κ : Type) [Ord κ'] [Ord κ] where
  key : κ' → κ
  back : κ → Option κ'
  back_eq_some_iff : ∀ {k k'}, back k = some k' ↔ key k' = k
  compare_key : ∀ a b, compare (key a) (key b) = compare a b

namespace KeyEmbedding

variable {κ' κ : Type} [Ord κ'] [Ord κ] (ι : KeyEmbedding κ' κ)

@[simp] theorem back_key (k' : κ') : ι.back (ι.key k') = some k' := ι.back_eq_some_iff.2 rfl

theorem key_injective {a b : κ'} (h : ι.key a = ι.key b) : a = b := by
  have hback := ι.back_key a
  rw [h, ι.back_key b] at hback
  exact (Option.some.inj hback).symm

end KeyEmbedding

namespace SortedMap

variable {κ' κ ν ν' : Type} [Ord κ'] [Ord κ]

def viewEntry (ι : KeyEmbedding κ' κ) (read : κ' → ν → Option ν') (e : κ × ν) : Option (κ' × ν') :=
  (ι.back e.1).bind fun k' => (read k' e.2).map fun v' => (k', v')

theorem viewEntry_eq_some_iff {ι : KeyEmbedding κ' κ} {read : κ' → ν → Option ν'} {e : κ × ν}
    {k' : κ'} {v' : ν'} :
    viewEntry ι read e = some (k', v') ↔ ι.key k' = e.1 ∧ read k' e.2 = some v' := by
  simp only [viewEntry, Option.bind_eq_some_iff, Option.map_eq_some_iff, Prod.mk.injEq,
    ι.back_eq_some_iff]
  constructor
  · rintro ⟨k, hk, v, hv, rfl, rfl⟩
    exact ⟨hk, hv⟩
  · rintro ⟨hk, hv⟩
    exact ⟨k', hk, v', hv, rfl, rfl⟩

def view (ι : KeyEmbedding κ' κ) (read : κ' → ν → Option ν') (m : SortedMap κ ν) :
    SortedMap κ' ν' where
  entries := m.entries.filterMap (viewEntry ι read)
  ascending := by
    apply List.Pairwise.filterMap _ _ m.ascending
    intro a b hab x hx y hy
    obtain ⟨hxa, -⟩ := viewEntry_eq_some_iff.1 hx
    obtain ⟨hyb, -⟩ := viewEntry_eq_some_iff.1 hy
    rw [← hxa, ← hyb, ι.compare_key] at hab
    exact hab

section Lookup

variable [DecidableEq κ'] [DecidableEq κ] [Std.TransOrd κ'] [Std.LawfulEqOrd κ']
  [Std.TransOrd κ] [Std.LawfulEqOrd κ]
  (ι : KeyEmbedding κ' κ) (read : κ' → ν → Option ν') (m : SortedMap κ ν)

omit [Std.TransOrd κ'] [Std.TransOrd κ] in
theorem get?_view (k' : κ') : (view ι read m).get? k' = (m.get? (ι.key k')).bind (read k') := by
  apply Option.ext
  intro v'
  rw [← mem_entries_iff, view, List.mem_filterMap, Option.bind_eq_some_iff]
  constructor
  · rintro ⟨e, he, hv⟩
    obtain ⟨hk, hread⟩ := viewEntry_eq_some_iff.1 hv
    exact ⟨e.2, (mem_entries_iff m _ _).1 (hk ▸ he), hread⟩
  · rintro ⟨v, hv, hread⟩
    exact ⟨(ι.key k', v), (mem_entries_iff m _ _).2 hv, viewEntry_eq_some_iff.2 ⟨rfl, hread⟩⟩

theorem view_insert_key {k' : κ'} {v : ν} {v' : ν'} (h : read k' v = some v') :
    view ι read (m.insert (ι.key k') v) = (view ι read m).insert k' v' := by
  apply ext_get?
  intro k
  rw [get?_view, get?_insert, get?_insert, get?_view]
  by_cases hk : k' = k
  · subst hk
    simp [h]
  · have hne : ι.key k' ≠ ι.key k := fun heq => hk (ι.key_injective heq)
    simp [hk, hne]

theorem view_insert_other {k : κ} (h : ∀ k', ι.key k' ≠ k) (v : ν) :
    view ι read (m.insert k v) = view ι read m := by
  apply ext_get?
  intro k'
  rw [get?_view, get?_insert, if_neg (Ne.symm (h k')), get?_view]

theorem view_erase_key (k' : κ') :
    view ι read (m.erase (ι.key k')) = (view ι read m).erase k' := by
  apply ext_get?
  intro k
  rw [get?_view, get?_erase, get?_erase, get?_view]
  by_cases hk : k' = k
  · subst hk
    simp
  · have hne : ι.key k' ≠ ι.key k := fun heq => hk (ι.key_injective heq)
    simp [hk, hne]

theorem erase_of_get?_eq_none {k : κ} (h : m.get? k = none) : m.erase k = m := by
  apply ext_get?
  intro k'
  rw [get?_erase]
  by_cases hk : k = k'
  · subst hk
    simp [h]
  · simp [hk]

omit [Std.TransOrd κ] in
theorem entries_eq_cons_erase {k : κ} {v : ν} (h : m.get? k = some v)
    (hleast : ∀ e ∈ m.entries, compare e.1 k ≠ .lt) :
    m.entries = (k, v) :: (m.erase k).entries := by
  have hmem := (mem_entries_iff m k v).2 h
  obtain ⟨entries, ascending⟩ := m
  cases entries with
  | nil => cases hmem
  | cons hd tl =>
    obtain ⟨hhd, -⟩ := List.pairwise_cons.1 ascending
    have heq : (k, v) = hd := by
      rcases List.mem_cons.1 hmem with heq | htl
      · exact heq
      · exact absurd (hhd _ htl) (hleast hd List.mem_cons_self)
    subst heq
    have hrest : tl.filter (fun e => decide (e.1 ≠ k)) = tl := by
      rw [List.filter_eq_self]
      intro e he
      have hlt := hhd e he
      apply decide_eq_true
      rintro rfl
      simp at hlt
    simp only [erase, filter, List.filter_cons, ne_eq, not_true_eq_false, decide_false,
      Bool.false_eq_true, ↓reduceIte]
    exact congrArg _ hrest.symm

end Lookup

section Batches

variable [DecidableEq κ]

def domain (m : SortedMap κ ν) : Finset κ := m.keys.toFinset

variable [Std.TransOrd κ] [Std.LawfulEqOrd κ] {m : SortedMap κ ν} {l : List (κ × ν)}

omit [Std.TransOrd κ] in
theorem mem_domain {k : κ} : k ∈ m.domain ↔ ∃ v, m.get? k = some v := by
  simp only [domain, keys, List.mem_toFinset, List.mem_map, Prod.exists, exists_and_right,
    exists_eq_right, mem_entries_iff]

omit [DecidableEq κ] [Std.TransOrd κ] in
theorem nodup_keys (m : SortedMap κ ν) : m.keys.Nodup := by
  apply List.Pairwise.map Prod.fst _ m.ascending
  rintro a b hlt heq
  rw [heq] at hlt
  simp at hlt

omit [Std.TransOrd κ] in
theorem card_domain (m : SortedMap κ ν) : m.domain.card = m.size := by
  rw [domain, List.toFinset_card_of_nodup m.nodup_keys]
  simp [keys, size]

def insertEntries (m : SortedMap κ ν) (l : List (κ × ν)) : SortedMap κ ν :=
  l.foldl (fun m e => m.insert e.1 e.2) m

theorem get?_insertEntries_of_notMem {k : κ} (h : k ∉ l.map Prod.fst) :
    (m.insertEntries l).get? k = m.get? k := by
  induction l generalizing m with
  | nil => rfl
  | cons e l ih =>
    simp only [List.map_cons, List.mem_cons, not_or] at h
    exact (ih h.2).trans (by rw [get?_insert, if_neg (Ne.symm h.1)])

theorem get?_insertEntries_of_mem {k : κ} {v : ν} (hnodup : (l.map Prod.fst).Nodup)
    (h : (k, v) ∈ l) : (m.insertEntries l).get? k = some v := by
  induction l generalizing m with
  | nil => cases h
  | cons e l ih =>
    obtain ⟨hfresh, hnodup⟩ := List.nodup_cons.1 hnodup
    rcases List.mem_cons.1 h with rfl | h
    · exact (get?_insertEntries_of_notMem hfresh).trans (by rw [get?_insert, if_pos rfl])
    · exact ih hnodup h

theorem ofList_of_perm (h : l.Perm m.entries) : ofList l = m := by
  have hnodup : (l.map Prod.fst).Nodup := (h.map Prod.fst).nodup_iff.2 m.nodup_keys
  apply ext_get?
  intro k
  cases hk : m.get? k with
  | some v => exact get?_insertEntries_of_mem hnodup (h.mem_iff.2 ((mem_entries_iff m k v).2 hk))
  | none =>
    have hkeys : k ∉ l.map Prod.fst := by
      intro hmem
      obtain ⟨e, he, rfl⟩ := List.mem_map.1 hmem
      rw [(mem_entries_iff m e.1 e.2).1 (h.mem_iff.1 he)] at hk
      cases hk
    exact get?_insertEntries_of_notMem hkeys

theorem ofList_entries (m : SortedMap κ ν) : ofList m.entries = m := ofList_of_perm (.refl _)

theorem domain_insertEntries :
    (m.insertEntries l).domain = m.domain ∪ (l.map Prod.fst).toFinset := by
  induction l generalizing m with
  | nil => simp [insertEntries]
  | cons e l ih =>
    have hinsert : (m.insert e.1 e.2).domain = Insert.insert e.1 m.domain := by
      ext k
      rw [Finset.mem_insert, mem_domain, mem_domain, get?_insert]
      by_cases h : e.1 = k
      · simp [h]
      · simp [h, Ne.symm h]
    have hrest : (m.insertEntries (e :: l)).domain = ((m.insert e.1 e.2).insertEntries l).domain :=
      rfl
    rw [hrest, ih, hinsert, List.map_cons, List.toFinset_cons, Finset.insert_union,
      Finset.union_insert]

theorem size_insertEntries_eq_iff :
    (m.insertEntries l).size = m.size + l.length ↔
      (l.map Prod.fst).Nodup ∧ ∀ e ∈ l, m.get? e.1 = none := by
  rw [← card_domain, ← card_domain, domain_insertEntries]
  have hunion := Finset.card_union_le m.domain (l.map Prod.fst).toFinset
  have hle : (l.map Prod.fst).toFinset.card ≤ l.length := by
    simpa using List.toFinset_card_le (l.map Prod.fst)
  have hnodup : (l.map Prod.fst).toFinset.card = l.length ↔ (l.map Prod.fst).Nodup := by
    rw [← List.length_map Prod.fst]
    exact Multiset.toFinset_card_eq_card_iff_nodup (m := Multiset.ofList (l.map Prod.fst))
  have hfresh : Disjoint m.domain (l.map Prod.fst).toFinset ↔ ∀ e ∈ l, m.get? e.1 = none := by
    simp only [Finset.disjoint_right, List.mem_toFinset, List.mem_map, mem_domain, not_exists,
      forall_exists_index, and_imp, forall_apply_eq_imp_iff₂, Option.eq_none_iff_forall_ne_some,
      ne_eq]
  rw [← hnodup, ← hfresh, ← Finset.card_union_eq_card_add_card]
  omega

theorem filter_insertEntries {p : κ → ν → Bool} (h : ∀ e ∈ l, ∀ v, p e.1 v = true) :
    (m.insertEntries l).filter p = (m.filter p).insertEntries l := by
  induction l generalizing m with
  | nil => rfl
  | cons e l ih =>
    obtain ⟨he, hl⟩ := List.forall_mem_cons.1 h
    have hinsert : (m.insert e.1 e.2).filter p = (m.filter p).insert e.1 e.2 := by
      apply ext_get?
      intro k
      rw [get?_filter, get?_insert, get?_insert, get?_filter]
      by_cases hk : e.1 = k
      · subst hk
        simp [Option.filter, he]
      · simp [hk]
    exact (ih hl).trans (by rw [hinsert]; rfl)

end Batches

theorem map_filter_eq_map_filter_view {γ : Type} {ι : KeyEmbedding κ' κ}
    {read : κ' → ν → Option ν'} {m : SortedMap κ ν} {p : κ × ν → Bool} {q : κ' × ν' → Bool}
    {f : κ × ν → γ} {g : κ' × ν' → γ}
    (h : ∀ e ∈ m.entries, (if p e then some (f e) else none) =
      ((viewEntry ι read e).filter q).map g) :
    (m.entries.filter p).map f = ((view ι read m).entries.filter q).map g := by
  have hleft : (m.entries.filter p).map f =
      m.entries.filterMap fun e => if p e then some (f e) else none := by
    rw [← List.filterMap_eq_map, List.filterMap_filter]
    rfl
  have hright : ((view ι read m).entries.filter q).map g =
      m.entries.filterMap fun e => ((viewEntry ι read e).filter q).map g := by
    rw [view, List.filter_filterMap, List.map_filterMap]
  rw [hleft, hright]
  exact List.filterMap_congr h

section Values

variable [DecidableEq κ] (f : ν → ν') (m : SortedMap κ ν)

def mapValues : SortedMap κ ν' where
  entries := m.entries.map fun e => (e.1, f e.2)
  ascending := List.Pairwise.map _ (fun _ _ h => h) m.ascending

theorem get?_mapValues (k : κ) : (m.mapValues f).get? k = (m.get? k).map f := by
  obtain ⟨entries, hascending⟩ := m
  induction entries with
  | nil => rfl
  | cons e rest ih =>
    obtain ⟨hhead, hrest⟩ := List.pairwise_cons.1 hascending
    by_cases hk : e.1 = k
    · simp [get?, mapValues, find?, hk]
    · simpa [get?, mapValues, find?, hk] using ih hrest

omit [DecidableEq κ] in
theorem filter_mapValues (p : κ → Bool) :
    (m.mapValues f).filter (fun k _ => p k) = (m.filter fun k _ => p k).mapValues f := by
  apply ext
  simp only [filter, mapValues, List.filter_map]
  rfl

end Values

end SortedMap

namespace SortedSet

variable {κ : Type} [Ord κ]

theorem isEmpty_iff {s : SortedSet κ} : s.isEmpty = true ↔ s = .empty := by
  constructor
  · intro h
    obtain ⟨entries, hascending⟩ := s
    obtain rfl : entries = [] := List.isEmpty_iff.1 h
    rfl
  · rintro rfl
    rfl

variable [DecidableEq κ] [Std.TransOrd κ] [Std.LawfulEqOrd κ]

theorem mem_ofList {l : List κ} {k : κ} : k ∈ (ofList l).keys ↔ k ∈ l := by
  have hdomain : (ofList l).domain = (SortedMap.empty : SortedSet κ).domain ∪
      ((l.map fun k => (k, ())).map Prod.fst).toFinset :=
    SortedMap.domain_insertEntries
  have hempty : (SortedMap.empty : SortedSet κ).domain = ∅ := rfl
  rw [← List.mem_toFinset]
  change k ∈ (ofList l).domain ↔ k ∈ l
  simp [hdomain, hempty, Function.comp_def]

omit [Std.TransOrd κ] in
theorem mem_keys_iff {s : SortedSet κ} {k : κ} : k ∈ s.keys ↔ s.get? k = some () := by
  rw [← List.mem_toFinset]
  exact SortedMap.mem_domain.trans ⟨fun ⟨_, hv⟩ => hv, fun hv => ⟨(), hv⟩⟩

theorem ext_mem {s s' : SortedSet κ} (h : ∀ k, k ∈ s.keys ↔ k ∈ s'.keys) : s = s' := by
  apply SortedMap.ext_get?
  intro k
  apply Option.ext
  rintro ⟨⟩
  rw [← mem_keys_iff, ← mem_keys_iff, h]

omit [Std.TransOrd κ] in
theorem contains_iff {s : SortedSet κ} {k : κ} : s.contains k = true ↔ k ∈ s.keys := by
  rw [SortedMap.contains, Option.isSome_iff_exists, mem_keys_iff]
  exact ⟨fun ⟨_, h⟩ => h, fun h => ⟨(), h⟩⟩

theorem mem_insert {s : SortedSet κ} {k k' : κ} :
    k' ∈ (s.insert k ()).keys ↔ k = k' ∨ k' ∈ s.keys := by
  rw [mem_keys_iff, mem_keys_iff, SortedMap.get?_insert]
  by_cases h : k = k' <;> simp [h]

theorem mem_erase {s : SortedSet κ} {k k' : κ} :
    k' ∈ (s.erase k).keys ↔ k ≠ k' ∧ k' ∈ s.keys := by
  rw [mem_keys_iff, mem_keys_iff, SortedMap.get?_erase]
  by_cases h : k = k' <;> simp [h]

theorem mem_union {s s' : SortedSet κ} {k : κ} :
    k ∈ (union s s').keys ↔ k ∈ s.keys ∨ k ∈ s'.keys := by
  have hdomain : (union s s').domain = s.domain ∪ (s'.entries.map Prod.fst).toFinset :=
    SortedMap.domain_insertEntries
  rw [← List.mem_toFinset]
  change k ∈ (union s s').domain ↔ _
  rw [hdomain, Finset.mem_union, List.mem_toFinset, SortedMap.domain, List.mem_toFinset]
  rfl

theorem mem_of_mem_diff {s s' : SortedSet κ} {k : κ} (h : k ∈ (diff s s').keys) : k ∈ s.keys := by
  rw [mem_keys_iff, diff, SortedMap.get?_filter] at h
  exact mem_keys_iff.2 (Option.filter_eq_some_iff.1 h).1

omit [DecidableEq κ] in
theorem union_singleton (s : SortedSet κ) (k : κ) : union s (singleton k) = s.insert k () := rfl

theorem diff_singleton (s : SortedSet κ) (k : κ) : diff s (singleton k) = s.erase k := by
  apply congrArg s.filter
  funext k' _
  rw [SortedMap.contains, singleton, SortedMap.get?_insert, SortedMap.get?_empty]
  by_cases h : k = k'
  · simp [h]
  · simp [h, Ne.symm h]

end SortedSet

end PushQueue
