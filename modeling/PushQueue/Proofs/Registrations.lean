import PushQueue.Proofs.Mailbox.Ages
import PushQueue.Proofs.Ownership
import PushQueue.Proofs.Readable

/-!
Where the connection in a router row comes from. A row is made and its connection is renewed by
registrations alone; whatever else is done to it takes the node away or leaves it. So a node that is
reported was registered, though it may be held since by registrations that brought no node, and
these renew the time of the connection.
-/

namespace PushQueue

namespace RouterContent

structure Fades (row row' : RouterContent) : Prop where
  connectedAt : row'.connectedAt = row.connectedAt
  routerData : row'.routerData = row.routerData
  node : ∀ n, row'.node = some n → row.node = some n

theorem Fades.refl (row : RouterContent) : row.Fades row := ⟨rfl, rfl, fun _ => id⟩

theorem Fades.trans {row₁ row₂ row₃ : RouterContent} (h₁ : row₁.Fades row₂)
    (h₂ : row₂.Fades row₃) : row₁.Fades row₃ where
  connectedAt := h₂.connectedAt.trans h₁.connectedAt
  routerData := h₂.routerData.trans h₁.routerData
  node n h := h₁.node n (h₂.node n h)

end RouterContent

namespace Store

variable {α : Type} {a : α} {s s' s₁ s₂ s₃ : Store} {name other p q : String}

def routerAt (name p : String) (s : Store) : Option RouterContent :=
  match s.tables.get? name with
  | some (.routers rows) => rows.get? p
  | some (.messages _) | none => none

theorem routerAt_of_routerRows {rows : RouterRows} (h : s.routerRows name = .ok rows)
    (p : String) : s.routerAt name p = rows.get? p := by
  rw [routerAt, get?_of_table (routerRows_eq_ok_iff.1 h)]

theorem routerAt_setTable (s : Store) (name : String) (rows : RouterRows) (p : String) :
    (s.setTable name (.routers rows)).routerAt name p = rows.get? p := by
  rw [routerAt, get?_setTable, if_pos rfl]

theorem routerAt_setTable_messages (s : Store) (name : String) (rows : MessageRows) (p : String) :
    (s.setTable name (.messages rows)).routerAt name p = none := by
  rw [routerAt, get?_setTable, if_pos rfl]

theorem routerAt_setTable_of_ne (h : other ≠ name) (s : Store) (table : Table) (p : String) :
    (s.setTable other table).routerAt name p = s.routerAt name p := by
  rw [routerAt, routerAt, get?_setTable, if_neg h]

/-- A row that is there was there before, and has not been registered since. -/
def Fades (name p : String) (s s' : Store) : Prop :=
  ∀ row', s'.routerAt name p = some row' → ∃ row, s.routerAt name p = some row ∧ row.Fades row'

theorem Fades.refl (name p : String) (s : Store) : s.Fades name p s :=
  fun row hrow => ⟨row, hrow, .refl row⟩

theorem Fades.trans (h₁ : s₁.Fades name p s₂) (h₂ : s₂.Fades name p s₃) : s₁.Fades name p s₃ := by
  intro row₃ hrow₃
  obtain ⟨row₂, hrow₂, hfades₂⟩ := h₂ row₃ hrow₃
  obtain ⟨row₁, hrow₁, hfades₁⟩ := h₁ row₂ hrow₂
  exact ⟨row₁, hrow₁, hfades₁.trans hfades₂⟩

def Fading (name p : String) {α : Type} (f : Store → Except StoreError (α × Store)) : Prop :=
  ∀ s a s', f s = .ok (a, s') → s.Fades name p s'

theorem fading_map (f : Store → Except StoreError α) :
    Fading name p fun s => (f s).map fun a => (a, s) := by
  intro s a s' h
  rw [Mailbox.reading_map f s a s' h]
  exact .refl name p s

theorem fades_setTable_messages (s : Store) (other : String) (rows : MessageRows) :
    s.Fades name p (s.setTable other (.messages rows)) := by
  intro row' hrow'
  by_cases hname : other = name
  · rw [hname, routerAt_setTable_messages] at hrow'
    cases hrow'
  · rw [routerAt_setTable_of_ne hname] at hrow'
    exact ⟨row', hrow', .refl row'⟩

theorem fades_setTable_routers {rows rows' : RouterRows} (hrows : s.routerRows other = .ok rows)
    (h : other = name → ∀ row', rows'.get? p = some row' →
      ∃ row, rows.get? p = some row ∧ row.Fades row') :
    s.Fades name p (s.setTable other (.routers rows')) := by
  intro row' hrow'
  by_cases hname : other = name
  · subst hname
    rw [routerAt_setTable] at hrow'
    rw [routerAt_of_routerRows hrows]
    exact h rfl row' hrow'
  · rw [routerAt_setTable_of_ne hname] at hrow'
    exact ⟨row', hrow', .refl row'⟩

theorem fading_updateMessages (f : MessageRows → α × MessageRows) :
    Fading name p (updateMessages other f) := by
  intro s a s' h
  obtain ⟨rows, -, -, rfl⟩ := exists_rows_of_updateMessages h
  exact fades_setTable_messages s other _

theorem fading_putRows (written : List MessageRow) : Fading name p (putRows other written) := by
  intro s a s' h
  unfold putRows at h
  split at h
  · obtain ⟨_, -, heq⟩ := map_eq_ok_iff.1 h
    obtain ⟨-, rfl⟩ := Prod.mk.inj heq
    exact .refl name p s
  · exact fading_updateMessages _ s a s' h

theorem fading_changeRouter {change : RouterContent → RouterContent}
    (hchange : ∀ row : RouterContent, row.Fades (change row)) (holds : RouterContent → Bool) :
    Fading name p (changeRouter other q holds change) := by
  intro s a s' h
  obtain ⟨rows, hrows, -, rfl⟩ := exists_rows_of_updateRouters h
  refine fades_setTable_routers hrows fun _ row' hrow' => ?_
  have hsame (hget : rows.get? p = some row') :
      ∃ row, rows.get? p = some row ∧ row.Fades row' := ⟨row', hget, .refl row'⟩
  split at hrow'
  next stored hstored =>
    split at hrow'
    · rw [SortedMap.get?_insert] at hrow'
      split at hrow'
      next hq =>
        cases hrow'
        exact ⟨stored, hq ▸ hstored, hchange stored⟩
      next => exact hsame hrow'
    · exact hsame hrow'
  next => exact hsame hrow'

theorem fading_setMonth (month : String) (stamp : UInt64) :
    Fading name p (setMonth other q month stamp) := by
  refine fading_changeRouter ?_ _
  exact fun row => ⟨rfl, rfl, fun _ => id⟩

theorem fading_setLastConnect (stamp : UInt64) :
    Fading name p (setLastConnect other q stamp) := by
  refine fading_changeRouter ?_ _
  exact fun row => ⟨rfl, rfl, fun _ => id⟩

theorem fading_clearNode (node : String) (connectedAt : UInt64) :
    Fading name p (clearNode other q node connectedAt) := by
  refine fading_changeRouter ?_ _
  exact fun row => ⟨rfl, rfl, nofun⟩

theorem fading_deletePartition : Fading name p (deletePartition other q) := by
  intro s a s' h
  obtain ⟨table, htable, heq⟩ := map_eq_ok_iff.1 h
  cases table with
  | messages rows =>
    obtain ⟨-, rfl⟩ := Prod.mk.inj heq
    exact fades_setTable_messages s other _
  | routers rows =>
    obtain ⟨-, rfl⟩ := Prod.mk.inj heq
    refine fades_setTable_routers (routerRows_eq_ok_iff.2 htable) fun _ row' hrow' => ?_
    rw [SortedMap.get?_erase] at hrow'
    split at hrow'
    next => cases hrow'
    next => exact ⟨row', hrow', .refl row'⟩

theorem fading_putRouter (h : other = name → q ≠ p) (new : RouterContent) :
    Fading name p (putRouter other q new) := by
  intro s a s' hput
  obtain ⟨rows, hrows, -, rfl⟩ := exists_rows_of_updateRouters hput
  refine fades_setTable_routers hrows fun hname row' hrow' => ⟨row', ?_, .refl row'⟩
  split at hrow'
  · rwa [get?_upsert, if_neg (h hname)] at hrow'
  · exact hrow'

end Store

namespace Service

open PushQueue.Action (Built)
open Store (Fading)

variable {name p : String}

def RegistersAt (name p : String) (s : Service) : Prop :=
  ∃ r record, s = .registerRecord r record ∧ r.handle.table = name ∧
    r.handle.partition record.subscriber = p

theorem queries_fading (t : TableHandle) (u : SubscriberId) : Queries (Fading name p) t u :=
  fun _ _ => Store.fading_map _

theorem built_save_fading (t : TableHandle) (now : Instant) (u : SubscriberId)
    (channels : SortedSet ChannelId) : Built (Fading name p) (Channels.save t now u channels) :=
  .tracked _ (.call (Store.fading_updateMessages _))

theorem built_drop_fading (r : Router) (u : SubscriberId) : Built (Fading name p) (r.drop u) :=
  .tracked _ (.call Store.fading_deletePartition)

theorem built_setMonth_fading (r : Router) (m : Moment) (u : SubscriberId) (month : String) :
    Built (Fading name p) (r.setMonth m u month) :=
  .tracked _ (.call (Store.fading_setMonth _ _))

theorem built_fading (s : Service) (h : ¬ s.RegistersAt name p) :
    Built (Fading name p) s.action := by
  cases s with
  | register | unregister =>
    exact .tracked _ (.bind (.call (Store.fading_updateMessages _)) fun _ => .pure _)
  | allChannels => exact built_all (Store.fading_map _)
  | save t now u channels => exact built_save_fading t now u channels
  | store =>
    exact .tracked _ (.ofExcept fun _ _ =>
      .bind (.call (Store.fading_updateMessages _)) fun _ => .pure _)
  | storeAll => exact .tracked _ (.ofExcept fun _ _ => .call (Store.fading_putRows _))
  | delete => exact .tracked _ (.ofExcept fun _ _ => .call (Store.fading_updateMessages _))
  | fetch t u limit => exact built_fetch (queries_fading t u) limit
  | fetchAfter t u watermark limit => exact built_fetchAfter (queries_fading t u) watermark limit
  | markRead => exact .tracked _ (.ofExcept fun _ _ => .call (Store.fading_updateMessages _))
  | check t u includeTopics watermark limit =>
    exact built_check (queries_fading t u) includeTopics watermark limit
  | getRecord => exact built_get (Store.fading_map _)
  | registerRecord r record =>
    refine .tracked _ (.call (Store.fading_putRouter (fun hname hp => h ?_) _))
    exact ⟨r, record, rfl, hname, hp⟩
  | setMonth r m u month => exact built_setMonth_fading r m u month
  | detachNode => exact .tracked _ (.call (Store.fading_clearNode _ _))
  | drop r u => exact built_drop_fading r u
  | lookup r m u connectedAt rotation today =>
    exact built_lookup (built_get (Store.fading_map _)) (built_drop_fading r u)
      (Store.fading_setLastConnect _) connectedAt rotation today
  | move source target r m u =>
    exact built_move (built_all (Store.fading_map _)) (built_save_fading target _ _)
      (built_setMonth_fading r m u _)

theorem fades (s : Service) (h : ¬ s.RegistersAt name p) (e : Engine) :
    e.store.Fades name p (Action.run s.action e).2.store :=
  (s.built_fading h).steps (R := Store.Fades name p) (.refl name p) (fun h₁ h₂ => h₁.trans h₂)
    (fun hf _ _ _ => hf _ _ _) e

end Service

namespace Router

variable {r : Router} {u : SubscriberId} {e : Engine} {a : Attempt} {attempts : List Attempt}
  {record newer : RouterRecord} {row : RouterContent} {n : String} {c : UInt64}

theorem holds_some_iff {s : Store} :
    Holds r u s (some row) ↔
      s.routerAt r.handle.table (r.handle.partition u) = some row := by
  constructor
  · intro h
    obtain ⟨rows, hrows, hget⟩ := Store.getRouter_eq_ok_iff.1 h
    rw [Store.routerAt_of_routerRows hrows, hget]
  · intro h
    unfold Store.routerAt at h
    split at h
    next rows htable =>
      have hrows := Store.routerRows_eq_ok_iff.2
        ((Store.table_eq_ok_iff r.handle.valid_table).2 htable)
      exact Store.getRouter_eq_ok_iff.2 ⟨rows, hrows, h⟩
    all_goals cases h

section Steps

inductive Takes (record : RouterRecord) : Option RouterContent → RouterContent → Prop
  | fresh : Takes record none (rowOf record)
  | merged {stored : RouterContent} : stored.yieldsTo (rowOf record) = true →
    Takes record (some stored) ((rowOf record).mergeInto stored)

theorem Takes.node_cases {found : Option RouterContent} (h : Takes record found row)
    (hnode : row.node = some n) :
    row.connectedAt = record.connectedAt ∧ (record.node = some n ∨ record.node = none ∧
      ∃ stored, found = some stored ∧ stored.node = some n ∧
        stored.connectedAt < record.connectedAt) := by
  cases h with
  | fresh => exact ⟨rfl, .inl hnode⟩
  | @merged stored hyields =>
    refine ⟨rfl, ?_⟩
    have hmerged : (record.node <|> stored.node) = some n := hnode
    cases hnew : record.node with
    | some m =>
      rw [hnew] at hmerged
      exact .inl hmerged
    | none =>
      rw [hnew] at hmerged
      have hheld : stored.node = some n := hmerged
      simp only [RouterContent.yieldsTo, hheld, Option.isNone_some, Bool.false_or,
        Bool.and_eq_true, decide_eq_true_eq] at hyields
      exact .inr ⟨rfl, stored, rfl, hheld, hyields.2⟩

theorem register_cases (r : Router) (record : RouterRecord) (e : Engine) :
    (r.register record).Refuses e ∨ ∃ rows, e.store.routerRows r.handle.table = .ok rows ∧
      let p := r.handle.partition record.subscriber
      let outcome := Store.registered r.handle.table (rowOf record) (rows.get? p)
      (r.register record).Gives e outcome.1
        (e.store.setTable r.handle.table (.routers (rows.insert p outcome.2))) := by
  rcases Action.call_cases (Store.putRouter r.handle.table (r.handle.partition record.subscriber)
    (rowOf record)) e with hrefuses | ⟨answer, store, hput, hgives⟩
  · exact .inl (hrefuses.tracked _)
  · obtain ⟨rows, hrows, -⟩ := Store.exists_rows_of_updateRouters hput
    rw [Store.putRouter_eq hrows] at hput
    obtain ⟨rfl, rfl⟩ := Prod.mk.inj (Except.ok.inj hput)
    exact .inr ⟨rows, hrows, hgives.tracked _⟩

theorem register_fades_or_takes (r : Router) (record : RouterRecord) (e : Engine) :
    let p := r.handle.partition record.subscriber
    let result := Action.run (r.register record) e
    e.store.Fades r.handle.table p result.2.store ∨
      result.1 = .ok true ∧ ∃ row', result.2.store.routerAt r.handle.table p = some row' ∧
        Takes record (e.store.routerAt r.handle.table p) row' := by
  intro p result
  rcases register_cases r record e with
    ⟨error, e', hrun, hsame⟩ | ⟨rows, hrows, e', hrun, hafter⟩
  · left
    rw [show result = _ from hrun, hsame]
    exact .refl _ _ _
  · rw [show result = _ from hrun, hafter, Store.routerAt_setTable, SortedMap.get?_insert,
      if_pos rfl, Store.routerAt_of_routerRows hrows]
    have hunchanged {stored : RouterContent} (hget : rows.get? p = some stored) :
        e.store.Fades r.handle.table p
          (e.store.setTable r.handle.table (.routers (rows.insert p stored))) := by
      have htable := Store.routerRows_eq_ok_iff.1 hrows
      rw [SortedMap.insert_of_get? hget, Store.setTable_of_table htable]
      exact .refl _ _ _
    cases hget : rows.get? p with
    | none => exact .inr ⟨rfl, _, rfl, .fresh⟩
    | some stored =>
      cases hyields : stored.yieldsTo (rowOf record) with
      | false =>
        left
        simpa [Store.registered, hyields] using hunchanged hget
      | true =>
        cases hname : Store.offersShadowed r.handle.table with
        | true =>
          left
          simpa [Store.registered, hyields, hname] using hunchanged hget
        | false =>
          right
          simp only [Store.registered, hyields, hname, ↓reduceIte, Bool.false_eq_true]
          exact ⟨trivial, _, rfl, .merged hyields⟩

/-- An attempt leaves of the row what it finds of it, or it is a registration that the row takes. -/
theorem fades_or_takes (a : Attempt) (e : Engine) (name p : String) :
    e.store.Fades name p (attemptAll e [a]).store ∨
      ∃ r record row', a.service = .registerRecord r record ∧ r.handle.table = name ∧
        r.handle.partition record.subscriber = p ∧
        (Action.run (r.register record) { e with fault := a.fault }).1 = .ok true ∧
        (attemptAll e [a]).store.routerAt name p = some row' ∧
        Takes record (e.store.routerAt name p) row' := by
  obtain ⟨service, fault⟩ := a
  by_cases hregisters : service.RegistersAt name p
  · obtain ⟨r, record, rfl, rfl, rfl⟩ := hregisters
    rcases register_fades_or_takes r record { e with fault } with
      hfades | ⟨hanswer, row', hrow', htakes⟩
    · exact .inl hfades
    · exact .inr ⟨r, record, row', rfl, rfl, rfl, hanswer, hrow', htakes⟩
  · exact .inl (service.fades hregisters { e with fault })

end Steps

section Runs

/-- The attempt registers the record for the subscriber, and is told that it has. With key material
the record may be of another one, whose partition is the same. -/
structure Accepts (r : Router) (u : SubscriberId) (e : Engine) (a : Attempt)
    (record : RouterRecord) : Prop where
  service : a.service = .registerRecord r record
  partition : r.handle.partition record.subscriber = r.handle.partition u
  answer : (Action.run (r.register record) { e with fault := a.fault }).1 = .ok true

def Sole (r : Router) (attempts : List Attempt) : Prop :=
  ∀ a ∈ attempts, ∀ r' record, a.service = .registerRecord r' record →
    r'.handle.table = r.handle.table → r' = r

def Stays (r : Router) (u : SubscriberId) (e : Engine) (attempts : List Attempt) : Prop :=
  ∀ first, first <+: attempts → ∃ row, Holds r u (attemptAll e first).store (some row)

theorem stays_nil (hrow : Holds r u e.store (some row)) : Stays r u e [] := by
  intro first hfirst
  rw [List.prefix_nil.1 hfirst]
  exact ⟨row, hrow⟩

theorem Stays.concat (h : Stays r u e attempts)
    (hrow : Holds r u (attemptAll e (attempts ++ [a])).store (some row)) :
    Stays r u e (attempts ++ [a]) := by
  intro first hfirst
  rcases List.prefix_concat_iff.1 hfirst with rfl | hfirst
  · exact ⟨row, hrow⟩
  · exact h first hfirst

/-- One of the attempts is an accepted registration of the subscriber, at this time and without a
node. -/
def Renews (r : Router) (u : SubscriberId) (e : Engine) (attempts : List Attempt) (c : UInt64) :
    Prop :=
  ∃ before a after record, attempts = before ++ a :: after ∧
    Accepts r u (attemptAll e before) a record ∧ record.node = none ∧ record.connectedAt = c

theorem Renews.concat (h : Renews r u e attempts c) (a : Attempt) :
    Renews r u e (attempts ++ [a]) c := by
  obtain ⟨before, b, after, record, rfl, hrecord⟩ := h
  refine ⟨before, b, after ++ [a], record, ?_, hrecord⟩
  rw [List.append_assoc, List.cons_append]

/-- The node came with an accepted registration of the subscriber, and the row has stayed since. The
time of the connection is that of this registration, or a later one that was registered since. -/
def Registered (r : Router) (u : SubscriberId) (e : Engine) (attempts : List Attempt) (n : String)
    (c : UInt64) : Prop :=
  ∃ before a since record, attempts = before ++ a :: since ∧
    Accepts r u (attemptAll e before) a record ∧ record.node = some n ∧
    Stays r u (attemptAll e (before ++ [a])) since ∧
    (record.connectedAt = c ∨
      record.connectedAt < c ∧ Renews r u (attemptAll e (before ++ [a])) since c)

theorem registered_of_accepts (haccepts : Accepts r u (attemptAll e attempts) a record)
    (hrow : Holds r u (attemptAll e (attempts ++ [a])).store (some row))
    (hnode : record.node = some n) :
    Registered r u e (attempts ++ [a]) n record.connectedAt :=
  ⟨attempts, a, [], record, rfl, haccepts, hnode, stays_nil hrow, .inl rfl⟩

theorem attemptAll_since (e : Engine) (before since : List Attempt) (a : Attempt) :
    attemptAll (attemptAll e (before ++ [a])) since = attemptAll e (before ++ a :: since) := by
  rw [← attemptAll_append, List.append_assoc, List.singleton_append]

theorem Registered.concat (h : Registered r u e attempts n c)
    (hrow : Holds r u (attemptAll e (attempts ++ [a])).store (some row)) :
    Registered r u e (attempts ++ [a]) n c := by
  obtain ⟨before, b, since, record, rfl, haccepts, hnode, hstays, htime⟩ := h
  rw [List.append_assoc, List.cons_append] at hrow ⊢
  rw [← attemptAll_since] at hrow
  exact ⟨before, b, since ++ [a], record, rfl, haccepts, hnode, hstays.concat hrow,
    htime.imp_right fun hlater => hlater.imp_right fun hrenews => hrenews.concat a⟩

theorem Registered.renew (h : Registered r u e attempts n c)
    (haccepts : Accepts r u (attemptAll e attempts) a newer)
    (hrow : Holds r u (attemptAll e (attempts ++ [a])).store (some row))
    (hnone : newer.node = none) (hlt : c < newer.connectedAt) :
    Registered r u e (attempts ++ [a]) n newer.connectedAt := by
  obtain ⟨before, b, since, record, rfl, hfirst, hnode, hstays, htime⟩ := h
  have hle : record.connectedAt ≤ c :=
    htime.elim UInt64.le_of_eq fun hlater => UInt64.le_of_lt hlater.1
  rw [List.append_assoc, List.cons_append] at hrow ⊢
  rw [← attemptAll_since] at hrow haccepts
  refine ⟨before, b, since ++ [a], record, rfl, hfirst, hnode, hstays.concat hrow, .inr ⟨?_, ?_⟩⟩
  · exact UInt64.lt_of_le_of_lt hle hlt
  · exact ⟨since, a, [], newer, rfl, haccepts, hnone, rfl⟩

theorem registered_of_holds (hempty : Holds r u e.store none) (hsole : Sole r attempts)
    (hrow : Holds r u (attemptAll e attempts).store (some row)) (hnode : row.node = some n) :
    Registered r u e attempts n row.connectedAt := by
  -- From the end of the run: the last attempt leaves the registration of the node where it was, is
  -- itself that registration, or renews the time of the one before.
  induction attempts using List.reverseRecOn generalizing row with
  | nil =>
    rw [Holds, show (attemptAll e []).store = e.store from rfl, hempty] at hrow
    cases hrow
  | append_singleton attempts a ih =>
    have hsole' : Sole r attempts := fun b hb => hsole b (List.mem_append_left _ hb)
    rw [attemptAll_append] at hrow
    rcases fades_or_takes a (attemptAll e attempts) r.handle.table (r.handle.partition u) with
      hfades | ⟨r', record, row', hservice, htable, hp, hanswer, hrow', htakes⟩
    · obtain ⟨row₀, hrow₀, hfaded⟩ := hfades row (holds_some_iff.1 hrow)
      have hregistered := ih hsole' (holds_some_iff.2 hrow₀) (hfaded.node n hnode)
      rw [hfaded.connectedAt]
      rw [← attemptAll_append] at hrow
      exact hregistered.concat hrow
    · obtain rfl := hsole a (List.mem_append_right _ List.mem_cons_self) r' record hservice htable
      have haccepts : Accepts r' u (attemptAll e attempts) a record := ⟨hservice, hp, hanswer⟩
      obtain rfl : row' = row := Option.some.inj (hrow'.symm.trans (holds_some_iff.1 hrow))
      rw [← attemptAll_append] at hrow
      obtain ⟨htime, hnew | ⟨hnone, stored, hstored, hheld, hlt⟩⟩ := htakes.node_cases hnode
      · rw [htime]
        exact registered_of_accepts haccepts hrow hnew
      · rw [htime]
        exact (ih hsole' (holds_some_iff.2 hstored) hheld).renew haccepts hrow hnone hlt

theorem reads_of_run_get {found : Option RouterRecord}
    (h : (Action.run (r.get u) e).1 = .ok found) :
    ∃ row, Holds r u e.store row ∧ Reads u row found := by
  obtain ⟨e', hrun⟩ : ∃ e', Action.run (r.get u) e = (.ok found, e') := ⟨_, Prod.ext h rfl⟩
  exact (get_of_gives ⟨e', hrun, rfl⟩).2

theorem run_detachNode (hfault : e.fault = none) (hrow : Holds r u e.store (some row))
    (hnode : row.node = some n) :
    (Action.run (r.detachNode u n row.connectedAt) e).1 = .ok true := by
  obtain ⟨rows, hrows, hget⟩ := Store.getRouter_eq_ok_iff.1 hrow
  have hclear : Store.clearNode r.handle.table (r.handle.partition u) n row.connectedAt e.store =
      .ok (true, e.store.setTable r.handle.table (.routers
        (rows.insert (r.handle.partition u) { row with node := none }))) :=
    Store.changeRouter_eq hrows hget (by simp [hnode]) _
  obtain ⟨stats, hrun⟩ := Action.run_tracked_call hfault
    (Store.clearNode r.handle.table (r.handle.partition u) n row.connectedAt) .removeNodeId
  rw [hclear] at hrun
  exact congrArg Prod.fst hrun

/-- A node that is reported for a subscriber was registered for it since it has a row, and so was
the time of its connection: with it, or later and without a node. The connection can be detached by
what is reported. -/
theorem reported_node_was_registered {user : RouterRecord} (hempty : Holds r u e.store none)
    (hsole : Sole r attempts)
    (hreports : (Action.run (r.get u) { attemptAll e attempts with fault := none }).1 =
      .ok (some user))
    (hnode : user.node = some n) :
    Registered r u e attempts n user.connectedAt ∧
      (Action.run (r.detachNode u n user.connectedAt)
        { attemptAll e attempts with fault := none }).1 = .ok true ∧
      (r.handle.pseudonym.enabled = false →
        ∀ v, r.handle.partition v = r.handle.partition u ↔ v = u) := by
  obtain ⟨found, hrow, hreads⟩ := reads_of_run_get hreports
  cases hreads with
  | @some row _ hread =>
    obtain ⟨routerData, -, rfl⟩ := map_eq_ok_iff.1 hread
    exact ⟨registered_of_holds hempty hsole hrow hnode, run_detachNode rfl hrow hnode,
      fun h v => Mailbox.partition_eq_iff h u v⟩

/-- A connection registers with its node, and again four milliseconds later without one. -/
def renewal : List Attempt :=
  [⟨.registerRecord routers (early.record ⟨⟨1⟩⟩ RouterRecord.defaultRouterType
      (.fresh ⟨0⟩ ⟨⟨1⟩⟩)), none⟩,
    ⟨.registerRecord routers (.fresh ⟨9⟩ ⟨⟨1⟩⟩), none⟩]

theorem sole_renewal : Sole routers renewal := by
  simp [Sole, renewal]

theorem get_renewal : ∃ user,
    (Action.run (routers.get ⟨⟨1⟩⟩) { attemptAll (emptyEngine routers) renewal with
      fault := none }).1 = .ok (some user) ∧ user.node = some "n1" ∧ user.connectedAt = 9 := by
  have hget : (Action.run (routers.get ⟨⟨1⟩⟩) { attemptAll (emptyEngine routers) renewal with
      fault := none }).1.map (Option.map fun user => (user.node, user.connectedAt)) =
      .ok (some (some "n1", 9)) := by decide +kernel
  obtain ⟨found, hfound, hshown⟩ := map_eq_ok_iff.1 hget
  obtain ⟨user, rfl, hpair⟩ := Option.map_eq_some_iff.1 hshown
  obtain ⟨hnode, htime⟩ := Prod.mk.inj hpair
  exact ⟨user, hfound, hnode, htime⟩

theorem reported_node_was_registered_renewed :
    Holds routers ⟨⟨1⟩⟩ (emptyEngine routers).store none ∧ Sole routers renewal ∧
    Registered routers ⟨⟨1⟩⟩ (emptyEngine routers) renewal "n1" 9 ∧
    (Action.run (routers.detachNode ⟨⟨1⟩⟩ "n1" 9)
      { attemptAll (emptyEngine routers) renewal with fault := none }).1 = .ok true := by
  obtain ⟨user, hreports, hnode, htime⟩ := get_renewal
  have hempty := holds_emptyEngine routers ⟨⟨1⟩⟩
  obtain ⟨hregistered, hdetach, -⟩ :=
    reported_node_was_registered hempty sole_renewal hreports hnode
  rw [htime] at hregistered hdetach
  exact ⟨hempty, sole_renewal, hregistered, hdetach⟩

/-- The node is reported with a time at which it was not registered, and the connection that did
register it cannot be detached. -/
theorem renewed_node_never_registered :
    Holds routers ⟨⟨1⟩⟩ (emptyEngine routers).store none ∧ Sole routers renewal ∧
    (∃ user, (Action.run (routers.get ⟨⟨1⟩⟩) { attemptAll (emptyEngine routers) renewal with
      fault := none }).1 = .ok (some user) ∧ user.node = some "n1" ∧ user.connectedAt = 9) ∧
    (∀ a ∈ renewal, ∀ r record, a.service = .registerRecord r record →
      ¬ (record.node = some "n1" ∧ record.connectedAt = 9)) ∧
    (Action.run (routers.detachNode ⟨⟨1⟩⟩ "n1" 5)
      { attemptAll (emptyEngine routers) renewal with fault := none }).1 = .ok false := by
  refine ⟨holds_emptyEngine routers ⟨⟨1⟩⟩, sole_renewal, get_renewal, ?_, by decide +kernel⟩
  simp [renewal, Connection.record, early, RouterRecord.fresh]

end Runs

end Router

end PushQueue
