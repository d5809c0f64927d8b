import PushQueue.Proofs.Mailbox.Reads
import PushQueue.Proofs.Services

/-!
Reads and the ages of rows. Only a sweep looks at the second in which a row expires: a read gives
the same on rows that differ in nothing else, and no read takes a row away.
-/

namespace PushQueue

def RowContent.undated (content : RowContent) : RowContent := { content with expiry := 0 }

def MessageRow.undated (row : MessageRow) : MessageRow :=
  { row with content := row.content.undated }

namespace Mailbox

def undated (rows : MessageRows) : MessageRows := rows.mapValues RowContent.undated

variable {t : TableHandle} {u : SubscriberId} {α β : Type} {act : Action α}
  {next : α → Action β} {e e₁ e₂ : Engine}

section Rows

theorem select_undated (rows : MessageRows) (p : String) (range : KeyRange) :
    Store.select (undated rows) p range = (Store.select rows p range).map MessageRow.undated := by
  unfold Store.select undated
  rw [SortedMap.filter_mapValues RowContent.undated rows
    fun k => decide (k.partition = p) && range.contains k.sortKey]
  simp only [SortedMap.mapValues, List.map_map]
  rfl

theorem splitMetadata_undated (rows : List MessageRow) :
    splitMetadata (rows.map MessageRow.undated) =
      ((splitMetadata rows).1.map RowContent.undated,
        (splitMetadata rows).2.map MessageRow.undated) := by
  cases rows with
  | nil => rfl
  | cons row rest =>
    rw [List.map_cons, splitMetadata, splitMetadata]
    cases hkey : row.key.isMetadata with
    | true =>
      have hundated : row.undated.key.isMetadata = true := hkey
      rw [if_pos hundated, if_pos rfl]
      rfl
    | false =>
      have hundated : ¬ row.undated.key.isMetadata = true := by
        rw [Bool.not_eq_true]
        exact hkey
      rw [if_neg hundated, if_neg Bool.false_ne_true]
      rfl

theorem mapM_readRow_undated (u : SubscriberId) (rows : List MessageRow) :
    (rows.map MessageRow.undated).mapM (readRow u) = rows.mapM (readRow u) := by
  rw [List.mapM_map]
  rfl

theorem profile_undated (rows : MessageRows) (p : String) :
    Channels.profile (undated rows) p = Channels.profile rows p := by
  unfold Channels.profile undated
  rw [SortedMap.get?_mapValues]
  cases rows.get? (RowKey.metadata p) <;> rfl

end Rows

section Reads

structure SameButAge (t : TableHandle) (e₁ e₂ : Engine) : Prop where
  fault₁ : e₁.fault = none
  fault₂ : e₂.fault = none
  rows : ∃ rows₁ rows₂, e₁.store.messageRows t.table = .ok rows₁ ∧
    e₂.store.messageRows t.table = .ok rows₂ ∧ undated rows₁ = undated rows₂

/-- The action leaves the store as it is, and gives the same whatever the ages of the rows are. -/
structure Ageless (t : TableHandle) (act : Action α) : Prop where
  store : ∀ e, (Action.run act e).2.store = e.store
  outcome : ∀ {e₁ e₂}, SameButAge t e₁ e₂ → (Action.run act e₁).1 = (Action.run act e₂).1 ∧
    SameButAge t (Action.run act e₁).2 (Action.run act e₂).2

theorem Ageless.pure (t : TableHandle) (a : α) : Ageless t (pure a : Action α) where
  store _ := rfl
  outcome h := ⟨rfl, h⟩

theorem Ageless.bind (hact : Ageless t act) (hnext : ∀ a, Ageless t (next a)) :
    Ageless t (act >>= next) where
  store e := by
    have hstore := hact.store e
    rw [Action.run_bind]
    cases hrun : Action.run act e with
    | mk result e' =>
      rw [hrun] at hstore
      cases result with
      | ok a => exact ((hnext a).store e').trans hstore
      | error error => exact hstore
  outcome {e₁ e₂} h := by
    obtain ⟨hresult, hsame⟩ := hact.outcome h
    rw [Action.run_bind, Action.run_bind]
    cases h₁ : Action.run act e₁ with
    | mk result₁ e₁' =>
      cases h₂ : Action.run act e₂ with
      | mk result₂ e₂' =>
        rw [h₁, h₂] at hresult hsame
        obtain rfl : result₁ = result₂ := hresult
        cases result₁ with
        | ok a => exact (hnext a).outcome hsame
        | error error => exact ⟨rfl, hsame⟩

def Reading {α : Type} (f : Store → Except StoreError (α × Store)) : Prop :=
  ∀ s a s', f s = .ok (a, s') → s' = s

theorem reading_map (f : Store → Except StoreError α) :
    Reading fun s => (f s).map fun a => (a, s) := by
  intro s a s' h
  obtain ⟨b, -, heq⟩ := map_eq_ok_iff.1 h
  exact (Prod.mk.inj heq).2.symm

theorem Ageless.of_run (hbuilt : Action.Built Reading act)
    (answer : MessageRows → Except StoreError α)
    (hanswer : ∀ rows, answer (undated rows) = answer rows)
    (hrun : ∀ {e rows}, e.store.messageRows t.table = .ok rows → e.fault = none →
      ∃ stats, Action.run act e = (answer rows, { e with stats })) : Ageless t act where
  store e := hbuilt.steps (R := fun s s' => s' = s) (fun _ => rfl) (fun h h' => h'.trans h)
    (fun hf _ _ _ => hf _ _ _) e
  outcome {e₁ e₂} h := by
    obtain ⟨hfault₁, hfault₂, rows₁, rows₂, hrows₁, hrows₂, hsame⟩ := h
    obtain ⟨stats₁, hrun₁⟩ := hrun hrows₁ hfault₁
    obtain ⟨stats₂, hrun₂⟩ := hrun hrows₂ hfault₂
    rw [hrun₁, hrun₂]
    refine ⟨?_, hfault₁, hfault₂, rows₁, rows₂, hrows₁, hrows₂, hsame⟩
    rw [← hanswer rows₁, hsame, hanswer]

theorem queries_reading (t : TableHandle) (u : SubscriberId) : Service.Queries Reading t u :=
  fun range limit => reading_map fun s => s.query t.table (t.partition u) range limit

theorem ageless_all (t : TableHandle) (u : SubscriberId) : Ageless t (Channels.all t u) :=
  .of_run (Service.built_all (reading_map _)) _ (fun rows => profile_undated rows (t.partition u))
    fun hrows hfault => Channels.run_all hrows hfault u

theorem ageless_fetch (t : TableHandle) (u : SubscriberId) (limit : Nat) :
    Ageless t (fetch t u limit) := by
  refine .of_run (Service.built_fetch (queries_reading t u) limit) _ (fun rows => ?_)
    fun hrows hfault => run_fetch u limit hrows hfault
  rw [select_undated, ← List.map_take, splitMetadata_undated, mapM_readRow_undated]
  cases (splitMetadata ((Store.select rows (t.partition u)
    (.below SortKey.topicUpperBound)).take limit)).1 <;> rfl

theorem ageless_fetchAfter (t : TableHandle) (u : SubscriberId) (watermark : Option UInt64)
    (limit : Nat) : Ageless t (fetchAfter t u watermark limit) := by
  have hbuilt := Service.built_fetchAfter (queries_reading t u) watermark limit
  cases hbound : KeyError.orStore (SortKey.timestampLowerBound watermark) with
  | error error =>
    refine .of_run hbuilt (fun _ => .error error) (fun _ => rfl) fun _ _ => ?_
    apply Action.run_tracked
    rw [hbound]
    rfl
  | ok bound =>
    refine .of_run hbuilt _ (fun rows => ?_)
      fun hrows hfault => run_fetchAfter u limit hrows hfault (orStore_eq_ok_iff.1 hbound)
    rw [select_undated, ← List.map_take, mapM_readRow_undated]

theorem ageless_check (t : TableHandle) (u : SubscriberId) (includeTopics : Bool)
    (watermark : Option UInt64) (limit : Nat) :
    Ageless t (check t u includeTopics watermark limit) := by
  have hqueue (watermark : Option UInt64) : Ageless t (check.queue t u limit watermark) :=
    (ageless_fetchAfter t u watermark limit).bind fun _ => .pure t _
  unfold check
  cases includeTopics with
  | false => exact hqueue watermark
  | true =>
    refine (ageless_fetch t u limit).bind fun topics => ?_
    cases topics.messages.isEmpty with
    | true => exact hqueue (topics.timestamp <|> watermark)
    | false => exact .pure t _

end Reads

end Mailbox

end PushQueue
