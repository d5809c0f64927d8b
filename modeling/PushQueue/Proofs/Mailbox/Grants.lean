import PushQueue.Proofs.Mailbox.Versions

/-!
The lifetimes that calls grant. Every call that writes a row asks for a number of seconds, or for as
many as there are; its client cuts them down, and the row is to stay until they are over.
-/

namespace PushQueue

/-- The second and the longest lifetime after it are below `2 ^ 63`, as they are for every date of
the next hundred thousand million years. -/
def Instant.IsTimely (now : Instant) : Prop := (now.ms / 1000).toNat + 2592000 < 2 ^ 63

instance (now : Instant) : Decidable now.IsTimely := inferInstanceAs (Decidable (_ < _))

theorem Instant.IsTimely.seconds_lt {now : Instant} (h : now.IsTimely) :
    now.seconds.toNat + 2592000 < 2 ^ 63 := by
  have h : (now.ms / 1000).toNat + 2592000 < 2 ^ 63 := h
  unfold seconds
  rw [UInt64.toNat_ofNat']
  omega

theorem toNat_secondAfter {second lifetime : UInt64}
    (h : second.toNat + lifetime.toNat < 2 ^ 64) :
    (secondAfter second lifetime).toNat = second.toNat + lifetime.toNat := by
  have hfits : second.toNat + lifetime.toNat < UInt64.size := h
  unfold secondAfter
  rw [if_pos hfits, UInt64.toNat_add, Nat.mod_eq_of_lt h]

theorem TableHandle.toNat_maxTtl_withMaxTtl (t : TableHandle) (maxTtl : UInt64) :
    (t.withMaxTtl maxTtl).maxTtl.toNat = min maxTtl.toNat 2592000 := by
  unfold withMaxTtl
  split
  next h => exact (Nat.min_eq_left (UInt64.le_iff_toNat_le.1 h)).symm
  next h => exact (Nat.min_eq_right (Nat.le_of_not_le (mt UInt64.le_iff_toNat_le.2 h))).symm

namespace Mailbox

variable {t : TableHandle} {now : Instant} {k : RowKey} {call : Call} {row : Option RowContent}
  {v : Visit} {e : Engine} {rows : MessageRows} {last : Nat}

section Calls

def lastFor (now : Instant) (p : String) (k : RowKey) : List Notification → Option Notification
  | [] => none
  | n :: rest =>
    (lastFor now p k rest).or
      (if (n.place? now).map (Place.rowKey p) = some k then some n else none)

/-- The lifetime that a call asks for when it writes the row under a key; of several notifications
in one batch the last one decides. -/
def Call.requested? (t : TableHandle) (now : Instant) (k : RowKey) (call : Call) :
    Option (Option UInt64) :=
  match call with
  | .store n => (lastFor now (t.partition n.subscriber) k [n]).map fun n => some n.ttl
  | .storeAll subscriber ns =>
    (lastFor now (t.partition subscriber) k ns).map fun n => some n.ttl
  | .register _ _ ttl =>
    if RowKey.metadata (t.partition call.subscriber) = k then some ttl else none
  | .unregister .. | .save .. | .markRead .. =>
    if RowKey.metadata (t.partition call.subscriber) = k then some none else none
  | .delete _ => none

theorem expiry_lastAt {p : String} {ns : List Notification} {written : List MessageRow}
    (hplaces : ∀ n ∈ ns, (n.place? now).isSome)
    (h : ns.map (fun n => (rowFor t now p n).map Prod.snd) = written.map Except.ok) :
    (lastAt k written).map RowContent.expiry =
      (lastFor now p k ns).map fun n => t.expiryAt now.seconds (some n.ttl) := by
  induction ns generalizing written with
  | nil =>
    obtain rfl : written = [] := List.map_eq_nil_iff.1 h.symm
    rfl
  | cons n rest ih =>
    obtain ⟨hplace, hrest⟩ := List.forall_mem_cons.1 hplaces
    obtain ⟨place, hplace⟩ := Option.isSome_iff_exists.1 hplace
    cases written with
    | nil => cases h
    | cons row written =>
      obtain ⟨hrow, htail⟩ := List.cons.inj h
      obtain ⟨content, hrowFor, -⟩ := rowFor_of_place (t := t) (p := p) hplace
      simp only [hrowFor] at hrow
      obtain rfl : ⟨place.rowKey p, content⟩ = row := Except.ok.inj hrow
      have hexpiry : content.expiry = t.expiryAt now.seconds (some n.ttl) :=
        (rowFor_spec hrowFor).2.2.1
      rw [lastAt, lastFor, hplace, Option.map_some, Option.map_or, Option.map_or, ih hrest htail]
      by_cases hk : place.rowKey p = k
      · simp only [hk, hexpiry, ↓reduceIte, Option.map_some]
      · simp only [hk, Option.some.injEq, ↓reduceIte, Option.map_none]

def Call.isStore : Call → Bool
  | .store _ | .storeAll .. => true
  | .delete _ | .markRead .. | .register .. | .unregister .. | .save .. => false

theorem Call.expiry_written (h : call.isWellFormed now = true) (hstore : call.isStore = true) :
    (lastAt k (call.written t now)).map RowContent.expiry =
      (call.requested? t now k).map (t.expiryAt now.seconds) := by
  cases call with
  | store n =>
    obtain ⟨key, row, hrow, -⟩ := exists_row t (t.partition n.subscriber) h
    have hplaces : ∀ m ∈ [n], (m.place? now).isSome := List.forall_mem_singleton.2 h
    have hmap : [n].map (fun m => (rowFor t now (t.partition n.subscriber) m).map Prod.snd) =
        [row].map Except.ok := by
      rw [List.map_singleton, hrow]
      rfl
    rw [written, hrow, requested?, Option.map_map]
    exact expiry_lastAt hplaces hmap
  | storeAll subscriber ns =>
    have hplaces : ∀ n ∈ ns, (n.place? now).isSome := List.all_eq_true.1 h
    obtain ⟨rows, hrows, -⟩ := Mailbox.exists_rows t (t.partition subscriber) hplaces
    rw [written, hrows, requested?, Option.map_map]
    exact expiry_lastAt hplaces (map_eq_of_mapM_eq_ok hrows)
  | delete | markRead | register | unregister | save => cases hstore

theorem Call.expiry_onRow (hname : Store.offersShadowed t.table = false)
    (hwf : call.isWellFormed now = true) {ttl : Option UInt64}
    (h : call.requested? t now k = some ttl) (row : Option RowContent) :
    (call.onRow t now k row).map RowContent.expiry = some (t.expiryAt now.seconds ttl) := by
  cases call with
  | store | storeAll =>
    have hexpiry := expiry_written (t := t) (k := k) hwf rfl
    rw [h, Option.map_some] at hexpiry
    obtain ⟨content, hlast, hexpiry⟩ := Option.map_eq_some_iff.1 hexpiry
    rw [onRow, hlast, Option.some_or, Option.map_some, hexpiry]
  | register | unregister | markRead =>
    obtain ⟨hk, httl⟩ := Option.ite_none_right_eq_some.1 h
    rw [onRow, if_pos hk, onProfile, upserted_eq hname, ← Option.some.inj httl]
    rfl
  | save =>
    obtain ⟨hk, httl⟩ := Option.ite_none_right_eq_some.1 h
    rw [onRow, if_pos hk, onProfile, ← Option.some.inj httl]
    rfl
  | delete => cases h

theorem Call.onRow_of_not_requested (hwf : call.isWellFormed now = true)
    (hdelete : ∀ n, call ≠ .delete n) (h : call.requested? t now k = none) :
    call.onRow t now k row = row := by
  cases call with
  | store | storeAll =>
    have hexpiry := expiry_written (t := t) (k := k) hwf rfl
    rw [h, Option.map_none, Option.map_eq_none_iff] at hexpiry
    rw [onRow, hexpiry, Option.none_or]
  | register | unregister | markRead | save =>
    rw [onRow, if_neg]
    intro hk
    rw [requested?, if_pos hk] at h
    cases h
  | delete n => exact absurd rfl (hdelete n)

theorem Call.target?_of_not_delete (h : ∀ n, call ≠ .delete n) : call.target? t = none := by
  cases call with
  | delete n => exact absurd rfl (h n)
  | store | storeAll | markRead | register | unregister | save => rfl

end Calls

namespace Visit

section Lifetimes

def granted (v : Visit) : Option UInt64 → Nat
  | some ttl => min ttl.toNat (min v.maxTtl.toNat 2592000)
  | none => min v.maxTtl.toNat 2592000

/-- The last second of the row under a key, if the visit is to write it. -/
def lastSecond? (t : TableHandle) (k : RowKey) (v : Visit) : Option Nat :=
  (v.request.call.requested? (v.handle t) v.request.now k).map fun ttl =>
    v.request.now.seconds.toNat + v.granted ttl

theorem granted_le (v : Visit) (ttl : Option UInt64) : v.granted ttl ≤ 2592000 := by
  cases ttl with
  | none => exact Nat.min_le_right _ _
  | some ttl => exact (Nat.min_le_right _ _).trans (Nat.min_le_right _ _)

theorem lastSecond_le (h : v.lastSecond? t k = some last) :
    last ≤ v.request.now.seconds.toNat + 2592000 := by
  obtain ⟨ttl, -, rfl⟩ := Option.map_eq_some_iff.1 h
  exact Nat.add_le_add_left (v.granted_le ttl) _

theorem toNat_expiryAt (h : v.request.now.IsTimely) (t : TableHandle) (ttl : Option UInt64) :
    ((v.handle t).expiryAt v.request.now.seconds ttl).toNat =
      v.request.now.seconds.toNat + v.granted ttl := by
  have hmax : (v.handle t).maxTtl.toNat = min v.maxTtl.toNat 2592000 :=
    TableHandle.toNat_maxTtl_withMaxTtl _ _
  have hseconds := h.seconds_lt
  have hgranted := v.granted_le ttl
  unfold TableHandle.expiryAt
  cases ttl with
  | none =>
    rw [toNat_secondAfter, hmax, granted]
    rw [hmax]
    omega
  | some ttl =>
    have hmin : (min ttl (v.handle t).maxTtl).toNat = v.granted (some ttl) := by
      rw [UInt64.toNat_min, hmax, granted]
    rw [toNat_secondAfter, hmin]
    rw [hmin]
    omega

theorem expiry_onRow (hname : Store.offersShadowed t.table = false)
    (htimely : v.request.now.IsTimely) (hadmitted : v.request.isAdmitted = true)
    (h : v.lastSecond? t k = some last) (row : Option RowContent) :
    ∃ content, v.onRow t k row = some content ∧ content.expiry.toNat = last := by
  obtain ⟨ttl, hrequested, rfl⟩ := Option.map_eq_some_iff.1 h
  obtain ⟨-, hwf⟩ := Bool.and_eq_true_iff.1 hadmitted
  rw [← v.table_handle t] at hname
  obtain ⟨content, hcontent, hexpiry⟩ := Option.map_eq_some_iff.1
    (Call.expiry_onRow hname hwf hrequested row)
  refine ⟨content, ?_, ?_⟩
  · rw [onRow, if_pos hadmitted, hcontent]
  · rw [hexpiry, toNat_expiryAt htimely]

end Lifetimes

section Changes

def rewrites (t : TableHandle) (k : RowKey) (e : Engine) (v : Visit) : Bool :=
  (v.serve t e).1.isOk && (v.lastSecond? t k).isSome

/-- The visit deletes the row under a key, and says so. -/
def deletes (t : TableHandle) (k : RowKey) (e : Engine) (v : Visit) : Bool :=
  v.request.call.target? (v.handle t) = some k && v.answer? t e = some (.ok true)

theorem rewrites_iff (hrows : e.store.messageRows t.table = .ok rows) :
    v.rewrites t k e = true ↔
      v.request.isAdmitted = true ∧ ∃ last, v.lastSecond? t k = some last := by
  rw [rewrites, (v.serve_spec hrows).1, Bool.and_eq_true_iff, Option.isSome_iff_exists]

theorem onRow_of_not_rewrites (hrows : e.store.messageRows t.table = .ok rows)
    (h : v.rewrites t k e = false) :
    v.onRow t k (rows.get? k) = if v.deletes t k e then none else rows.get? k := by
  by_cases hadmitted : v.request.isAdmitted = true
  · have hrequested : v.request.call.requested? (v.handle t) v.request.now k = none := by
      rw [← Option.map_eq_none_iff, Option.eq_none_iff_forall_ne_some]
      intro last hlast
      rw [(rewrites_iff hrows).2 ⟨hadmitted, last, hlast⟩] at h
      cases h
    unfold onRow deletes
    rw [if_pos hadmitted]
    by_cases hdelete : ∃ n, v.request.call = .delete n
    · obtain ⟨n, hcall⟩ := hdelete
      by_cases htarget : v.request.call.target? (v.handle t) = some k
      · rw [answer_of_delete hrows hcall hadmitted htarget, decide_eq_true htarget, hcall,
          Call.onRow, ← hcall]
        simp [htarget]
      · rw [decide_eq_false htarget, hcall, Call.onRow, ← hcall, if_neg fun h => htarget h.1]
        rfl
    · have hcall : ∀ n, v.request.call ≠ .delete n := fun n hn => hdelete ⟨n, hn⟩
      obtain ⟨-, hwf⟩ := Bool.and_eq_true_iff.1 hadmitted
      rw [Call.onRow_of_not_requested hwf hcall hrequested, Call.target?_of_not_delete hcall]
      rfl
  · have hkept : v.deletes t k e = false := by
      rw [Bool.eq_false_iff]
      intro hdeletes
      obtain ⟨-, hanswer⟩ := Bool.and_eq_true_iff.1 hdeletes
      exact hadmitted (isAdmitted_of_answer (of_decide_eq_true hanswer))
    rw [onRow, if_neg hadmitted, hkept]
    rfl

end Changes

end Visit

end Mailbox

end PushQueue
