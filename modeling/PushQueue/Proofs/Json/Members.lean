import PushQueue.Json.Decode
import PushQueue.Proofs.SortedMap

/-!
Members of JSON objects. An object that is put together member by member has each name once, in
ascending order, with the value that came last; and a field is read back from the member that it is
written as, or as absent where it is left out.
-/

namespace PushQueue.Json

section Objects

variable {name other : String} {value : Json} {members : List (String × Json)}

def Ordered (members : List (String × Json)) : Prop := members.Pairwise fun a b => a.1 < b.1

theorem lookup_cons_ite {α : Type} (name other : String) (value : α) (rest : List (String × α)) :
    ((other, value) :: rest).lookup name =
      if name = other then some value else rest.lookup name := by
  by_cases h : name = other
  · rw [if_pos h, h, List.lookup_cons_self]
  · rw [if_neg h, List.lookup_cons, beq_eq_false_iff_ne.2 h]

theorem lookup_insertMember (name other : String) (value : Json) (members : List (String × Json)) :
    (insertMember name value members).lookup other =
      if other = name then some value else members.lookup other := by
  induction members with
  | nil => exact lookup_cons_ite other name value []
  | cons m rest ih =>
    obtain ⟨first, held⟩ := m
    rw [insertMember]
    split
    · exact lookup_cons_ite other name value _
    · split
      next heq =>
        subst heq
        rw [lookup_cons_ite, lookup_cons_ite]
        by_cases h : other = name
        · rw [if_pos h, if_pos h]
        · rw [if_neg h, if_neg h, if_neg h]
      next hne =>
        rw [lookup_cons_ite, lookup_cons_ite, ih]
        by_cases h : other = first
        · rw [if_pos h, if_neg fun heq => hne (heq.symm.trans h), if_pos h]
        · rw [if_neg h, if_neg h]

theorem mem_insertMember {m : String × Json} (h : m ∈ insertMember name value members) :
    m = (name, value) ∨ m ∈ members := by
  induction members with
  | nil => exact .inl (List.mem_singleton.1 h)
  | cons m' rest ih =>
    rw [insertMember] at h
    split at h
    · exact List.mem_cons.1 h
    · split at h
      · exact (List.mem_cons.1 h).imp_right (List.mem_cons_of_mem _)
      · rcases List.mem_cons.1 h with rfl | h
        · exact .inr List.mem_cons_self
        · exact (ih h).imp_right (List.mem_cons_of_mem _)

theorem Ordered.insertMember (h : Ordered members) (name : String) (value : Json) :
    Ordered (insertMember name value members) := by
  induction members with
  | nil => exact List.pairwise_singleton _ _
  | cons m rest ih =>
    obtain ⟨hfirst, hrest⟩ := List.pairwise_cons.1 h
    rw [Json.insertMember]
    split
    next hlt =>
      refine List.pairwise_cons.2 ⟨fun m' hm' => ?_, h⟩
      rcases List.mem_cons.1 hm' with rfl | hm'
      · exact hlt
      · exact String.lt_trans hlt (hfirst m' hm')
    next hlt =>
      split
      next heq => exact List.pairwise_cons.2 ⟨fun m' hm' => heq ▸ hfirst m' hm', hrest⟩
      next hne =>
        have hafter : m.1 < name := by
          refine Decidable.byContradiction fun hnot => hne ?_
          exact String.le_antisymm (String.not_lt.1 hnot) (String.not_lt.1 hlt)
        refine List.pairwise_cons.2 ⟨fun m' hm' => ?_, ih hrest⟩
        rcases mem_insertMember hm' with rfl | hm'
        · exact hafter
        · exact hfirst m' hm'

def gathered (members : List (String × Json)) : List (String × Json) :=
  members.foldl (fun acc m => insertMember m.1 m.2 acc) []

theorem ordered_gathered (members : List (String × Json)) : Ordered (gathered members) := by
  have hfold (acc : List (String × Json)) (hacc : Ordered acc) :
      Ordered (members.foldl (fun acc m => insertMember m.1 m.2 acc) acc) := by
    induction members generalizing acc with
    | nil => exact hacc
    | cons m rest ih => exact ih _ (hacc.insertMember m.1 m.2)
  exact hfold [] List.Pairwise.nil

theorem lookup_gathered (members : List (String × Json)) (name : String) :
    (gathered members).lookup name = members.reverse.lookup name := by
  have hfold (acc : List (String × Json)) :
      (members.foldl (fun acc m => insertMember m.1 m.2 acc) acc).lookup name =
        (members.reverse.lookup name).or (acc.lookup name) := by
    induction members generalizing acc with
    | nil => rfl
    | cons m rest ih =>
      rw [List.foldl_cons, ih, lookup_insertMember, List.reverse_cons, List.lookup_append,
        Option.or_assoc, lookup_cons_ite, List.lookup_nil]
      by_cases h : name = m.1 <;> simp [h]
  rw [gathered, hfold, List.lookup_nil, Option.or_none]

theorem insertMember_strings (name text : String) (entries : List (String × String)) :
    insertMember name (.string text) (entries.map fun e => (e.1, .string e.2)) =
      (SortedMap.insertEntry name text entries).map fun e => (e.1, .string e.2) := by
  induction entries with
  | nil => rfl
  | cons entry rest ih =>
    rw [List.map_cons, insertMember, SortedMap.insertEntry]
    have hcompare : compare name entry.1 = compareOfLessAndEq name entry.1 := rfl
    rw [hcompare, compareOfLessAndEq]
    split
    · rfl
    · split
      · rfl
      · exact congrArg _ ih

theorem ofMembers_strings (entries : List (String × String)) :
    ofMembers (entries.map fun e => (e.1, .string e.2)) =
      ofStringMap (SortedMap.ofList entries) := by
  have hfold (m : SortedMap String String) :
      (entries.map fun e => (e.1, Json.string e.2)).foldl (fun acc m => insertMember m.1 m.2 acc)
          (m.entries.map fun e => (e.1, .string e.2)) =
        (m.insertEntries entries).entries.map fun e => (e.1, .string e.2) := by
    induction entries generalizing m with
    | nil => rfl
    | cons entry rest ih =>
      rw [List.map_cons, List.foldl_cons, insertMember_strings]
      exact ih (m.insert entry.1 entry.2)
  exact congrArg Json.object (hfold .empty)

end Objects

section Values

theorem asWord?_word (w : UInt64) : (word w).asWord? = some w := by
  have hrange : (0 : Int) ≤ w.toNat ∧ (w.toNat : Int) < UInt64.size :=
    ⟨Int.natCast_nonneg _, Int.ofNat_lt.2 w.toNat_lt⟩
  simp only [word, asWord?, asBelow?, if_pos hrange, Option.map_some, Int.toNat_natCast,
    UInt64.ofNat_toNat]

theorem asByte?_natural (b : UInt8) : (natural b.toNat).asByte? = some b := by
  have hrange : (0 : Int) ≤ b.toNat ∧ (b.toNat : Int) < UInt8.size :=
    ⟨Int.natCast_nonneg _, Int.ofNat_lt.2 b.toNat_lt⟩
  simp only [natural, asByte?, asBelow?, if_pos hrange, Option.map_some, Int.toNat_natCast,
    UInt8.ofNat_toNat]

theorem asString?_string (s : String) : (string s).asString? = some s := rfl

theorem asMembers?_object (members : List (String × Json)) :
    (object members).asMembers? = some members :=
  rfl

theorem asStringMap?_ofStringMap (m : SortedMap String String) :
    (ofStringMap m).asStringMap? = some m := by
  have hread (l : List (String × String)) :
      (l.map fun e => (e.1, Json.string e.2)).mapM
        (fun m : String × Json => m.2.asString?.map fun s => (m.1, s)) = some l := by
    induction l with
    | nil => rfl
    | cons e rest ih => rw [List.map_cons, List.mapM_cons, ih]; rfl
  simp only [ofStringMap, asStringMap?, asMembers?, Option.bind_some, hread, Option.map_some,
    SortedMap.ofList_entries]

theorem asStrings?_list (texts : List String) : (list .string texts).asStrings? = some texts := by
  simp only [list, asStrings?, asItems?, Option.bind_some]
  induction texts with
  | nil => rfl
  | cons text rest ih => rw [List.map_cons, List.mapM_cons, ih]; rfl

end Values

section Records

variable {α : Type} {name : String} {slots : List (String × Option Json)}
  {members fields : List (String × Json)}

/-- A record is written as an object with a member for each of its fields that has a value. -/
def IsWrittenAs (slots : List (String × Option Json)) (j : Json) : Prop :=
  ∃ members, j = .object members ∧ Ordered members ∧
    ∀ name, members.lookup name = (slots.lookup name).join

theorem IsWrittenAs.member?_eq {j : Json} (h : IsWrittenAs slots j) (name : String) :
    j.member? name = (slots.lookup name).join := by
  obtain ⟨members, rfl, -, hmembers⟩ := h
  exact hmembers name

theorem mem_of_lookup {β : Type} {entries : List (String × β)} {b : β}
    (h : entries.lookup name = some b) : (name, b) ∈ entries := by
  obtain ⟨before, after, rfl, -⟩ := List.lookup_eq_some_iff.1 h
  exact List.mem_append_right _ List.mem_cons_self

theorem lookup_isSome_of_mem {β : Type} {entries : List (String × β)} {b : β}
    (h : (name, b) ∈ entries) : ∃ b', entries.lookup name = some b' := by
  induction entries with
  | nil => cases h
  | cons e rest ih =>
    rw [lookup_cons_ite]
    by_cases hname : name = e.1
    · exact ⟨e.2, if_pos hname⟩
    · rw [if_neg hname]
      rcases List.mem_cons.1 h with rfl | h
      · exact absurd rfl hname
      · exact ih h

theorem eq_of_mem_of_nodup {β : Type} {entries : List (String × β)} {b b' : β}
    (hnodup : (entries.map Prod.fst).Nodup) (h : (name, b) ∈ entries) (h' : (name, b') ∈ entries) :
    b = b' :=
  congrArg Prod.snd (List.inj_on_of_nodup_map hnodup h h' rfl)

theorem lookup_eq_some_iff_mem {β : Type} {entries : List (String × β)} {b : β}
    (hnodup : (entries.map Prod.fst).Nodup) :
    entries.lookup name = some b ↔ (name, b) ∈ entries := by
  refine ⟨mem_of_lookup, fun h => ?_⟩
  obtain ⟨b', hb'⟩ := lookup_isSome_of_mem h
  rw [hb', eq_of_mem_of_nodup hnodup h (mem_of_lookup hb')]

theorem isWrittenAs_ofMembers (hnodup : (slots.map Prod.fst).Nodup)
    (h : ∀ name value, (name, value) ∈ members ↔ (name, some value) ∈ slots) :
    IsWrittenAs slots (ofMembers members) := by
  refine ⟨gathered members, rfl, ordered_gathered members, fun name => ?_⟩
  rw [lookup_gathered]
  have hmem (value : Json) : (name, value) ∈ members.reverse ↔ (name, some value) ∈ slots :=
    List.mem_reverse.trans (h name value)
  apply Option.ext
  intro value
  rw [Option.join_eq_some_iff, lookup_eq_some_iff_mem hnodup, ← hmem]
  refine ⟨mem_of_lookup, fun hvalue => ?_⟩
  obtain ⟨value', hvalue'⟩ := lookup_isSome_of_mem hvalue
  have heq := eq_of_mem_of_nodup hnodup ((hmem value).1 hvalue)
    ((hmem value').1 (mem_of_lookup hvalue'))
  rw [hvalue', Option.some.inj heq]

theorem mem_memberIf {encode : α → Json} {o : Option α} {other : String} {value : Json} :
    (other, value) ∈ memberIf name encode o ↔ other = name ∧ some value = o.map encode := by
  cases o <;> simp [memberIf]

/-- A field is left out exactly if it was absent or null. -/
def Omits (names : List String) (fields : List (String × Json)) (written : Json) : Prop :=
  ∀ name ∈ names, written.member? name = none ↔
    fields.lookup name = none ∨ fields.lookup name = some .null

variable {decode : Json → Option α} {encode : α → Json} {fallback : α} {j : Json} {o : Option α}

/-- The reader gets `a` from the members of every object that is written with these slots. -/
def Reads (slots : List (String × Option Json)) (read : List (String × Json) → Option α) (a : α) :
    Prop :=
  ∀ members, (∀ name, members.lookup name = (slots.lookup name).join) → read members = some a

namespace Reads

variable {a : α}

theorem required (hslot : slots.lookup name = some (some j)) (hread : decode j = some a) :
    Reads slots (Json.required decode · name) a := by
  intro members hmembers
  change Json.required decode members name = _
  rw [Json.required, hmembers, hslot, Option.join_some, Option.bind_some, hread]

theorem withDefault (hslot : slots.lookup name = some (some j)) (hread : decode j = some a) :
    Reads slots (Json.withDefault fallback decode · name) a := by
  intro members hmembers
  change Json.withDefault fallback decode members name = _
  rw [Json.withDefault, hmembers, hslot, Option.join_some]
  exact hread

theorem optional (hslot : slots.lookup name = some (o.map encode))
    (hread : ∀ a, decode (encode a) = some a) (hnull : ∀ a, encode a ≠ .null) :
    Reads slots (Json.optional decode · name) o := by
  intro members hmembers
  change Json.optional decode members name = _
  rw [Json.optional, hmembers, hslot, Option.join_some]
  cases o with
  | none => rfl
  | some a =>
    rw [Option.map_some]
    split
    next heq => cases heq
    next heq => exact absurd (Option.some.inj heq) (hnull a)
    next heq => rw [← Option.some.inj heq, hread, Option.map_some]

theorem bind {β : Type} {b : β} {read : List (String × Json) → Option α}
    {next : α → List (String × Json) → Option β} (h : Reads slots read a)
    (hnext : Reads slots (next a) b) :
    Reads slots (fun members => read members >>= fun a => next a members) b := by
  intro members hmembers
  change (read members >>= fun a => next a members) = _
  rw [h members hmembers]
  exact hnext members hmembers

theorem pure (a : α) : Reads slots (fun _ => some a) a := fun _ _ => rfl

end Reads

theorem IsWrittenAs.read_eq {read : List (String × Json) → Option α} {a : α} {names : List String}
    (h : IsWrittenAs slots j) (hread : Reads slots read a) :
    (j.asRecord? names >>= read) = some a := by
  obtain ⟨members, rfl, -, hmembers⟩ := h
  exact hread members hmembers

theorem exists_of_required {a : α} (h : required decode fields name = some a) :
    ∃ j, fields.lookup name = some j ∧ decode j = some a :=
  Option.bind_eq_some_iff.1 h

theorem eq_none_iff_of_optional (h : optional decode fields name = some o) :
    o = none ↔ fields.lookup name = none ∨ fields.lookup name = some .null := by
  unfold optional at h
  split at h
  next heq => exact ⟨fun _ => .inl heq, fun _ => (Option.some.inj h).symm⟩
  next heq => exact ⟨fun _ => .inr heq, fun _ => (Option.some.inj h).symm⟩
  next value hnull heq =>
    obtain ⟨a, -, rfl⟩ := Option.map_eq_some_iff.1 h
    simp only [reduceCtorEq, heq, Option.some.injEq, false_or, false_iff]
    exact hnull

theorem absent_iff_of_optional {written : Json} (h : optional decode fields name = some o)
    (hwritten : written.member? name = o.map encode) :
    written.member? name = none ↔ fields.lookup name = none ∨ fields.lookup name = some .null := by
  rw [hwritten, ← eq_none_iff_of_optional h, Option.map_eq_none_iff]

theorem Omits.nil (fields : List (String × Json)) (written : Json) : Omits [] fields written :=
  List.forall_mem_nil _

theorem Omits.cons {names : List String} {written : Json}
    (h : optional decode fields name = some o) (hwritten : written.member? name = o.map encode)
    (hrest : Omits names fields written) : Omits (name :: names) fields written :=
  List.forall_mem_cons.2 ⟨absent_iff_of_optional h hwritten, hrest⟩

end Records

end PushQueue.Json
