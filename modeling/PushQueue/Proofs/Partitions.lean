import PushQueue.Proofs.Isolation
import PushQueue.Proofs.Readable
import PushQueue.Proofs.Spelling
import PushQueue.Settings

/-!
The partitions of rows under one set of settings. Every service finds a subscriber under the same
key, in message tables as in router tables, and every row that is stored goes back to a service for
the subscriber whose key it is stored under. With key material the keys are digests, which nobody
takes for an identifier.
-/

namespace PushQueue

namespace Pseudonym

variable {p : Pseudonym} {bytes : List UInt8} {text : String}

theorem toList_encodeHex (bytes : List UInt8) :
    (encodeHex bytes).toList = bytes.flatMap fun b => Text.padded 16 2 b.toNat :=
  String.toList_ofList

theorem length_encodeHex (bytes : List UInt8) :
    (encodeHex bytes).toList.length = 2 * bytes.length := by
  have hbyte (b : UInt8) : (Text.padded 16 2 b.toNat).length = 2 :=
    Text.length_padded_of_lt (by decide) b.toNat_lt
  rw [toList_encodeHex, List.length_flatMap]
  simp only [hbyte, List.map_const', List.sum_replicate_nat, Nat.mul_comm]

theorem mem_encodeHex {c : Char} (h : c ∈ (encodeHex bytes).toList) :
    c ∈ "0123456789abcdef".toList := by
  rw [toList_encodeHex, List.mem_flatMap] at h
  obtain ⟨b, -, hc⟩ := h
  obtain ⟨d, hd, rfl⟩ := Text.digitChar_of_mem_padded (by decide) hc b.toNat_lt
  exact Text.digitChar_mem_lower hd

/-- The text of a digest: 64 hexadecimal digits in lower case. -/
structure IsDigestText (text : String) : Prop where
  length_eq : text.toList.length = 64
  lower : ∀ c ∈ text.toList, c ∈ "0123456789abcdef".toList

theorem apply_of_ne_nil (h : p.key ≠ []) (value : String) :
    p.apply value = encodeHex (Digest.hmac p.key (Text.utf8 value)) := by
  have henabled : p.enabled = true := by
    rw [enabled, List.isEmpty_eq_false_iff.2 h]
    rfl
  rw [apply, if_pos henabled]

theorem isDigestText_encodeHex_hmac (key message : List UInt8) :
    IsDigestText (encodeHex (Digest.hmac key message)) where
  length_eq := by rw [length_encodeHex, Digest.length_hmac]
  lower _ := mem_encodeHex

/-- A digest spells no identifier: it has no blanks to drop, and it is too long. -/
theorem IsDigestText.not_isSpelledBy (h : IsDigestText text) {role : Role} (id : Ident role) :
    ¬ id.IsSpelledBy text := by
  rintro ⟨before, cs, after, htext, hbefore, hafter, hspells⟩
  have hnil {blanks : List Char} (hblanks : ∀ c ∈ blanks, Text.isBlank c)
      (hmem : ∀ c ∈ blanks, c ∈ text.toList) : blanks = [] := by
    refine List.eq_nil_iff_forall_not_mem.2 fun c hc => ?_
    have hblank := hblanks c hc
    rw [Text.isBlank_eq_false_of_mem_lower (h.lower c (hmem c hc))] at hblank
    cases hblank
  obtain rfl := hnil hbefore fun c hc => by simp [htext, hc]
  obtain rfl := hnil hafter fun c hc => by simp [htext, hc]
  have hlength := hspells.length_mem
  rw [List.nil_append, List.append_nil] at htext
  rw [← htext, h.length_eq] at hlength
  simp at hlength

end Pseudonym

namespace Settings

variable {settings : Settings} {t : TableHandle}

/-- The handles that are made by the settings, or from one of these for another table. -/
inductive Serves (settings : Settings) : TableHandle → Prop
  | handle {name : String} {t : TableHandle} : settings.handle name = .ok t → Serves settings t
  | forTable {name : String} {t t' : TableHandle} : Serves settings t → t.forTable name = .ok t' →
    Serves settings t'

theorem pseudonym_of_handle {name : String} (h : settings.handle name = .ok t) :
    settings.pseudonym = .ok t.pseudonym := by
  have hlimit (t : TableHandle) (maxTtl : UInt64) :
      (t.withMaxTtl maxTtl).pseudonym = t.pseudonym := by
    unfold TableHandle.withMaxTtl
    split <;> rfl
  unfold handle at h
  split at h
  next => cases h
  next => cases h
  next hpseudonym =>
    rw [hpseudonym, ← Except.ok.inj h, hlimit]
    rfl

theorem Serves.pseudonym_eq (h : settings.Serves t) : settings.pseudonym = .ok t.pseudonym := by
  induction h with
  | handle h => exact pseudonym_of_handle h
  | forTable _ h ih =>
    unfold TableHandle.forTable at h
    split at h
    · rw [ih, ← Except.ok.inj h]
    · cases h

end Settings

inductive StoredRow where
  | message (row : MessageRow)
  | router (partition : String) (content : RouterContent)

def StoredRow.partition : StoredRow → String
  | .message row => row.key.partition
  | .router partition _ => partition

namespace Store

variable {P : String → Prop} {s s' : Store} {name : String} {row : StoredRow}

def Has (s : Store) (name : String) : StoredRow → Prop
  | .message row => ∃ rows, s.tables.get? name = some (.messages rows) ∧
    rows.get? row.key = some row.content
  | .router partition content => ∃ rows, s.tables.get? name = some (.routers rows) ∧
    rows.get? partition = some content

theorem AgreesOn.has_of_has (h : s.AgreesOn P s') (hp : P row.partition) (hrow : s'.Has name row) :
    s.Has name row := by
  have htables := h name
  generalize hs : s.tables.get? name = found at htables
  cases row with
  | message row =>
    obtain ⟨rows', hrows', hget⟩ := hrow
    rw [hrows'] at htables
    cases htables with
    | some htable =>
      cases htable with
      | messages hagrees => exact ⟨_, hs, (hagrees row.key hp).trans hget⟩
  | router partition content =>
    obtain ⟨rows', hrows', hget⟩ := hrow
    rw [hrows'] at htables
    cases htables with
    | some htable =>
      cases htable with
      | routers hagrees => exact ⟨_, hs, (hagrees partition hp).trans hget⟩

end Store

section Runs

variable {settings : Settings} {p : Pseudonym} {e : Engine} {attempts : List Attempt}
  {name : String} {row : StoredRow}

namespace Service

/-- Every table that the service looks at is one of the settings. -/
def IsServedBy (s : Service) (settings : Settings) : Prop := ∀ t ∈ s.handles, settings.Serves t

theorem owns_iff {s : Service} (h : s.IsServedBy settings) (hp : settings.pseudonym = .ok p)
    (q : String) : s.Owns q ↔ q = p.partition s.subscriber := by
  have hpartition : ∀ t ∈ s.handles, t.partition s.subscriber = p.partition s.subscriber := by
    intro t ht
    rw [TableHandle.partition, Except.ok.inj ((h t ht).pseudonym_eq.symm.trans hp)]
  constructor
  · rintro ⟨t, ht, rfl⟩
    exact hpartition t ht
  · rintro rfl
    obtain ⟨t, ht⟩ : ∃ t, t ∈ s.handles := by cases s <;> exact ⟨_, List.mem_cons_self⟩
    exact ⟨t, ht, hpartition t ht⟩

end Service

/-- The attempt that a row at the end of a run goes back to: the row was not there before it, and it
has been there since. -/
def WrittenBy (e : Engine) (attempts : List Attempt) (name : String) (row : StoredRow)
    (a : Attempt) : Prop :=
  ∃ before after, attempts = before ++ a :: after ∧ ¬ (attemptAll e before).store.Has name row ∧
    ∀ later, later <+: after → (attemptAll e (before ++ a :: later)).store.Has name row

theorem exists_writtenBy (hfirst : ¬ e.store.Has name row)
    (hlast : (attemptAll e attempts).store.Has name row) :
    ∃ a, WrittenBy e attempts name row a := by
  induction attempts using List.reverseRecOn with
  | nil => exact absurd hlast hfirst
  | append_singleton attempts a ih =>
    by_cases hbefore : (attemptAll e attempts).store.Has name row
    · obtain ⟨b, before, after, rfl, habsent, hsince⟩ := ih hbefore
      refine ⟨b, before, after ++ [a], by simp, habsent, fun later hlater => ?_⟩
      rcases List.prefix_concat_iff.1 hlater with rfl | hlater
      · simpa using hlast
      · exact hsince later hlater
    · refine ⟨a, attempts, [], rfl, hbefore, fun later hlater => ?_⟩
      obtain rfl := List.prefix_nil.1 hlater
      exact hlast

theorem partition_of_attempt {a : Attempt} (h : a.service.IsServedBy settings)
    (hp : settings.pseudonym = .ok p) (habsent : ¬ e.store.Has name row)
    (hhas : (attemptAll e [a]).store.Has name row) :
    row.partition = p.partition a.service.subscriber := by
  refine Decidable.byContradiction fun hne => habsent ?_
  have hagrees : e.store.AgreesOn (fun q => ¬ a.service.Owns q) (attemptAll e [a]).store :=
    a.service.agreesOn_run { e with fault := a.fault }
  exact hagrees.has_of_has (fun howns => hne ((a.service.owns_iff h hp _).1 howns)) hhas

theorem WrittenBy.mem {a : Attempt} (h : WrittenBy e attempts name row a) : a ∈ attempts := by
  obtain ⟨before, after, rfl, -⟩ := h
  exact List.mem_append_right before List.mem_cons_self

theorem WrittenBy.partition_eq {a : Attempt} (h : WrittenBy e attempts name row a)
    (hserved : a.service.IsServedBy settings) (hp : settings.pseudonym = .ok p) :
    row.partition = p.partition a.service.subscriber := by
  obtain ⟨before, after, rfl, habsent, hsince⟩ := h
  have hhas := hsince [] List.nil_prefix
  rw [attemptAll_append] at hhas
  exact partition_of_attempt hserved hp habsent hhas

/-- Whatever services are asked for under some settings, in tables without rows at first, each row
goes back to a service for the subscriber whose key it is stored under, and all that a service does
is about the key of its subscriber and settled by the rows under it. If the settings have key
material, the key is the digest of the undashed identifier, and so no row is stored under a text of
any identifier. -/
theorem rows_under_pseudonyms (hp : settings.pseudonym = .ok p)
    (hempty : ∀ name row, ¬ e.store.Has name row)
    (hserved : ∀ a ∈ attempts, a.service.IsServedBy settings) :
    (∀ name row, (attemptAll e attempts).store.Has name row →
      ∃ a ∈ attempts, WrittenBy e attempts name row a ∧
        row.partition = p.partition a.service.subscriber) ∧
    (∀ s : Service, s.IsServedBy settings →
      Action.Built (EngineCall (· = p.partition s.subscriber)) s.action ∧
      ∀ e₁ e₂ : Engine, e₁.fault = e₂.fault →
        e₁.store.AgreesOn (· = p.partition s.subscriber) e₂.store →
        (Action.run s.action e₁).1 = (Action.run s.action e₂).1) ∧
    (∀ key, Pseudonym.decodeHex (Text.utf8 (Text.trim settings.keys.hashKey)) = .ok key →
      key ≠ [] → ∀ name row, (attemptAll e attempts).store.Has name row →
        (∃ a ∈ attempts, row.partition = Pseudonym.encodeHex
          (Digest.hmac key (Text.utf8 a.service.subscriber.simple))) ∧
        Pseudonym.IsDigestText row.partition ∧
        ∀ u : SubscriberId, row.partition ≠ u.text ∧ row.partition ≠ u.simple ∧
          ¬ u.IsSpelledBy row.partition) := by
  have hwriter : ∀ name row, (attemptAll e attempts).store.Has name row →
      ∃ a ∈ attempts, WrittenBy e attempts name row a ∧
        row.partition = p.partition a.service.subscriber := by
    intro name row hrow
    obtain ⟨a, hwritten⟩ := exists_writtenBy (hempty name row) hrow
    exact ⟨a, hwritten.mem, hwritten, hwritten.partition_eq (hserved a hwritten.mem) hp⟩
  refine ⟨hwriter, fun s hs => ?_, fun key hkey hne name row hrow => ?_⟩
  · have howns : s.Owns = (· = p.partition s.subscriber) :=
      funext fun q => propext (s.owns_iff hs hp q)
    rw [← howns]
    exact ⟨s.built, fun e₁ e₂ hfault hstore => (s.subscribers_isolated.2.1 e₁ e₂ hfault hstore).1⟩
  · obtain ⟨a, ha, -, hpartition⟩ := hwriter name row hrow
    obtain rfl : p = ⟨key⟩ := by
      rw [Settings.pseudonym, Pseudonym.ofHex, hkey] at hp
      exact (Except.ok.inj hp).symm
    rw [Pseudonym.partition, Pseudonym.apply_of_ne_nil hne] at hpartition
    have hdigest : Pseudonym.IsDigestText row.partition :=
      hpartition ▸ Pseudonym.isDigestText_encodeHex_hmac _ _
    refine ⟨⟨a, ha, hpartition⟩, hdigest, fun u => ⟨?_, ?_, hdigest.not_isSpelledBy u⟩⟩
    · intro heq
      exact hdigest.not_isSpelledBy u (heq ▸ u.isSpelledBy_text)
    · intro heq
      exact hdigest.not_isSpelledBy u (heq ▸ u.isSpelledBy_simple)

open Mailbox

def hashedSettings : Settings := { keys := { hashKey := "00112233445566778899AABBCCDDEEFF\n" } }

def hashedPseudonym : Pseudonym where
  key := [0x00, 0x11, 0x22, 0x33, 0x44, 0x55, 0x66, 0x77, 0x88, 0x99, 0xaa, 0xbb, 0xcc, 0xdd, 0xee,
    0xff]

def hashedTable : TableHandle := { januaryTable with pseudonym := hashedPseudonym }

theorem isValid_router : TableName.isValid "router" = true := by decide

def hashedRouters : TableHandle where
  table := "router"
  pseudonym := hashedPseudonym
  valid_table := isValid_router
  maxTtl_le := UInt64.le_refl maxRetention

def hashedEngine : Engine where
  store := ⟨(SortedMap.empty.insert "router" (.routers .empty)).insert hashedTable.table
    (.messages .empty)⟩

def hashedAttempts : List Attempt :=
  [⟨.register hashedTable ⟨5⟩ ⟨⟨1⟩⟩ ⟨⟨2⟩⟩ (some 60), none⟩,
    ⟨.registerRecord ⟨hashedRouters, 1⟩ (.fresh ⟨5⟩ ⟨⟨1⟩⟩), none⟩,
    ⟨.move hashedTable hashedTable ⟨hashedRouters, 1⟩ ⟨⟨7⟩, 0⟩ ⟨⟨1⟩⟩, some ⟨2, .transient "busy"⟩⟩]

theorem not_has_hashedEngine (name : String) (row : StoredRow) :
    ¬ hashedEngine.store.Has name row := by
  have htables : ∀ table, hashedEngine.store.tables.get? name = some table →
      table = .messages .empty ∨ table = .routers .empty := by
    intro table
    simp only [hashedEngine, SortedMap.get?_insert]
    split
    · rintro ⟨⟩
      exact .inl rfl
    · split
      · rintro ⟨⟩
        exact .inr rfl
      · intro h
        cases h
  cases row with
  | message row =>
    rintro ⟨rows, hrows, hget⟩
    obtain ⟨⟨⟩⟩ | ⟨⟨⟩⟩ := htables _ hrows
    rw [SortedMap.get?_empty] at hget
    cases hget
  | router partition content =>
    rintro ⟨rows, hrows, hget⟩
    rcases htables _ hrows with heq | heq
    · cases heq
    · rw [Table.routers.inj heq, SortedMap.get?_empty] at hget
      cases hget

theorem rows_under_pseudonyms_hashed :
    hashedSettings.pseudonym = .ok hashedPseudonym ∧
    (∀ name row, ¬ hashedEngine.store.Has name row) ∧
    (∀ a ∈ hashedAttempts, a.service.IsServedBy hashedSettings) ∧
    ∃ row, (attemptAll hashedEngine hashedAttempts).store.Has "router" row ∧
      row.partition = "a5061961063e21e4ba2a123fa8054300ad920a2b5f240f57206a3c5aa489f7a1" ∧
      Pseudonym.IsDigestText row.partition ∧ ∀ u : SubscriberId, row.partition ≠ u.simple := by
  have hpseudonym : hashedSettings.pseudonym = .ok hashedPseudonym := by decide +kernel
  have htable : hashedSettings.handle "message_2024_01" = .ok hashedTable := rfl
  have hrouters : hashedTable.forTable "router" = .ok hashedRouters := rfl
  have hserved : ∀ a ∈ hashedAttempts, a.service.IsServedBy hashedSettings := by
    have hserves : hashedSettings.Serves hashedTable := .handle htable
    simp [hashedAttempts, Service.IsServedBy, Service.handles, hserves, hserves.forTable hrouters]
  have hrow : Store.getRouter (attemptAll hashedEngine hashedAttempts).store "router"
      "a5061961063e21e4ba2a123fa8054300ad920a2b5f240f57206a3c5aa489f7a1" = .ok (some
        { connectedAt := 5, routerType := "webpush", recordVersion := some 1 }) := by
    decide +kernel
  obtain ⟨rows, hrows, hget⟩ := Store.getRouter_eq_ok_iff.1 hrow
  have hhas : (attemptAll hashedEngine hashedAttempts).store.Has "router" (.router _ _) :=
    ⟨rows, Store.get?_of_table (Store.routerRows_eq_ok_iff.1 hrows), hget⟩
  obtain ⟨-, -, hdigests⟩ :=
    rows_under_pseudonyms hpseudonym not_has_hashedEngine hserved
  have hkey : Pseudonym.decodeHex (Text.utf8 (Text.trim hashedSettings.keys.hashKey)) =
      .ok hashedPseudonym.key := by decide +kernel
  obtain ⟨-, hdigest, hother⟩ := hdigests _ hkey (by decide) _ _ hhas
  exact ⟨hpseudonym, not_has_hashedEngine, hserved, _, hhas, rfl, hdigest, fun u => (hother u).2.1⟩

end Runs

end PushQueue
