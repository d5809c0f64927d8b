import PushQueue.Engine

/-!
Running actions. An engine call gives its result with the store it made, unless the failure to come
hits it; an action of one call is refused as a whole, and then the store is as it was.
-/

namespace PushQueue

def Engine.isBlocked (e : Engine) : Bool := e.fault.any fun fault => fault.after = 0

namespace Action

variable {α β : Type} {e : Engine} {act : Action α} {next : α → Action β} {a : α} {b : β}
  {store : Store}

@[simp] theorem run_ofExcept (x : Except StoreError α) (e : Engine) :
    Action.run (ofExcept x) e = (x, e) := by
  cases x <;> rfl

theorem run_bind (act : Action α) (next : α → Action β) (e : Engine) :
    Action.run (act >>= next) e =
      match Action.run act e with
      | (.ok a, e') => Action.run (next a) e'
      | (.error error, e') => (.error error, e') := by
  change StateT.run (ExceptT.run (act >>= next)) e = _
  rw [ExceptT.run_bind]
  cases h : Action.run act e with
  | mk result e' =>
    have h' : (ExceptT.run act) e = (result, e') := h
    cases result <;> simp [StateT.run, bind, StateT.bind, h'] <;> rfl

theorem run_tracked {e' : Engine} {result : Except StoreError α}
    (h : Action.run act e = (result, e')) (op : Operation) :
    ∃ stats, Action.run (tracked op act) e = (result, { e' with stats }) := by
  obtain ⟨hresult, he⟩ := Prod.mk.inj h
  subst hresult he
  exact ⟨_, rfl⟩

def Gives (act : Action α) (e : Engine) (a : α) (store : Store) : Prop :=
  ∃ e', Action.run act e = (.ok a, e') ∧ e'.store = store

def Refuses (act : Action α) (e : Engine) : Prop :=
  ∃ error e', Action.run act e = (.error error, e') ∧ e'.store = e.store

theorem Gives.unique {store' : Store} {a' : α} (h : Gives act e a store)
    (h' : Gives act e a' store') : a = a' ∧ store = store' := by
  obtain ⟨e₁, hrun, rfl⟩ := h
  obtain ⟨e₂, hrun', rfl⟩ := h'
  rw [hrun] at hrun'
  cases hrun'
  exact ⟨rfl, rfl⟩

theorem Refuses.not_gives (h : Refuses act e) : ¬ Gives act e a store := by
  obtain ⟨error, e₁, hrun, -⟩ := h
  rintro ⟨e₂, hrun', -⟩
  rw [hrun] at hrun'
  cases hrun'

theorem Gives.tracked (h : Gives act e a store) (op : Operation) :
    Gives (tracked op act) e a store := by
  obtain ⟨e', hrun, hstore⟩ := h
  obtain ⟨stats, htracked⟩ := run_tracked hrun op
  exact ⟨_, htracked, hstore⟩

theorem Refuses.tracked (h : Refuses act e) (op : Operation) : Refuses (tracked op act) e := by
  obtain ⟨error, e', hrun, hstore⟩ := h
  obtain ⟨stats, htracked⟩ := run_tracked hrun op
  exact ⟨error, _, htracked, hstore⟩

theorem Gives.bind_pure (h : Gives act e a store) (f : α → β) :
    Gives (act >>= fun a => pure (f a)) e (f a) store := by
  obtain ⟨e', hrun, hstore⟩ := h
  refine ⟨e', ?_, hstore⟩
  rw [run_bind, hrun]
  rfl

theorem Refuses.bind (h : Refuses act e) (next : α → Action β) : Refuses (act >>= next) e := by
  obtain ⟨error, e', hrun, hstore⟩ := h
  refine ⟨error, e', ?_, hstore⟩
  rw [run_bind, hrun]

theorem Gives.after {e₁ : Engine} (hact : Action.run act e = (.ok a, e₁))
    (h : Gives (next a) e₁ b store) : Gives (act >>= next) e b store := by
  unfold Gives
  rw [run_bind, hact]
  exact h

theorem Refuses.after {e₁ : Engine} (hact : Action.run act e = (.ok a, e₁))
    (hstore : e₁.store = e.store) (h : Refuses (next a) e₁) : Refuses (act >>= next) e := by
  unfold Refuses
  rw [run_bind, hact, ← hstore]
  exact h

theorem run_ofExcept_bind (x : Except StoreError α) (next : α → Action β) (e : Engine) :
    Action.run (ofExcept x >>= next) e =
      match x with
      | .ok a => Action.run (next a) e
      | .error error => (.error error, e) := by
  rw [run_bind, run_ofExcept]
  cases x <;> rfl

theorem Gives.ofExcept_bind {x : Except StoreError α} (hx : x = .ok a)
    (h : Gives (next a) e b store) : Gives (ofExcept x >>= next) e b store := by
  unfold Gives
  rw [run_ofExcept_bind, hx]
  exact h

theorem Refuses.ofExcept_bind {x : Except StoreError α} (hx : ∀ a, x = .ok a → Refuses (next a) e) :
    Refuses (ofExcept x >>= next) e := by
  unfold Refuses
  rw [run_ofExcept_bind]
  cases x with
  | error error => exact ⟨error, e, rfl, rfl⟩
  | ok a => exact hx a rfl

section Successes

theorem Gives.of_tracked {op : Operation} (h : Gives (Action.tracked op act) e a store) :
    Gives act e a store := by
  obtain ⟨e', hrun, hstore⟩ := h
  cases hact : Action.run act e with
  | mk result e₁ =>
    obtain ⟨stats, htracked⟩ := run_tracked hact op
    rw [htracked] at hrun
    cases hrun
    exact ⟨e₁, hact, hstore⟩

theorem Gives.of_bind (h : Gives (act >>= next) e b store) :
    ∃ a e₁, Gives act e a e₁.store ∧ Gives (next a) e₁ b store := by
  obtain ⟨e', hrun, hstore⟩ := h
  rw [run_bind] at hrun
  split at hrun
  next a e₁ hact => exact ⟨a, e₁, ⟨e₁, hact, rfl⟩, ⟨e', hrun, hstore⟩⟩
  next => cases hrun

theorem Gives.of_pure {a' : α} (h : Gives (pure a') e a store) : a = a' ∧ store = e.store := by
  obtain ⟨e', hrun, rfl⟩ := h
  cases hrun
  exact ⟨rfl, rfl⟩

theorem Gives.of_bind_pure {f : α → β} (h : Gives (act >>= fun a => pure (f a)) e b store) :
    ∃ a, Gives act e a store ∧ b = f a := by
  obtain ⟨a, e₁, hact, hpure⟩ := h.of_bind
  obtain ⟨rfl, rfl⟩ := hpure.of_pure
  exact ⟨a, hact, rfl⟩

theorem Gives.of_ofExcept_bind {x : Except StoreError α}
    (h : Gives (ofExcept x >>= next) e b store) : ∃ a, x = .ok a ∧ Gives (next a) e b store := by
  unfold Gives at h
  rw [run_ofExcept_bind] at h
  cases x with
  | error error =>
    obtain ⟨e', hrun, -⟩ := h
    cases hrun
  | ok a => exact ⟨a, rfl, h⟩

end Successes

section Calls

variable {f : Store → Except StoreError (α × Store)}

theorem exists_run_call (h : e.isBlocked = false) (f : Store → Except StoreError (α × Store)) :
    ∃ fault, Action.run (call f) e = call.reach f { e with fault } := by
  unfold Action.run call
  simp only [ExceptT.run_mk, StateT.run]
  split
  next error hfault => simp [Engine.isBlocked, hfault] at h
  next n error hfault => exact ⟨_, rfl⟩
  next hfault => exact ⟨e.fault, rfl⟩

theorem gives_call (h : e.isBlocked = false) (hf : f e.store = .ok (a, store)) :
    Gives (call f) e a store := by
  obtain ⟨fault, hrun⟩ := exists_run_call h f
  refine ⟨{ e with fault, store }, ?_, rfl⟩
  simp only [hrun, call.reach, hf]

theorem refuses_call_of_error {error : StoreError} (h : e.isBlocked = false)
    (hf : f e.store = .error error) : Refuses (call f) e := by
  obtain ⟨fault, hrun⟩ := exists_run_call h f
  refine ⟨error, { e with fault }, ?_, rfl⟩
  simp only [hrun, call.reach, hf]

theorem refuses_call (h : e.isBlocked = true) (f : Store → Except StoreError (α × Store)) :
    Refuses (call f) e := by
  unfold Refuses Action.run call
  simp only [ExceptT.run_mk, StateT.run]
  split
  next error hfault => exact ⟨error, _, rfl, rfl⟩
  next n error hfault => simp [Engine.isBlocked, hfault] at h
  next hfault => simp [Engine.isBlocked, hfault] at h

theorem call_cases (f : Store → Except StoreError (α × Store)) (e : Engine) :
    Refuses (call f) e ∨ ∃ a store, f e.store = .ok (a, store) ∧ Gives (call f) e a store := by
  cases hblocked : e.isBlocked with
  | true => exact .inl (refuses_call hblocked f)
  | false =>
    cases hf : f e.store with
    | error error => exact .inl (refuses_call_of_error hblocked hf)
    | ok result => exact .inr ⟨result.1, result.2, rfl, gives_call hblocked hf⟩

/-- A call that the store can serve fails only if the failure hits it. -/
theorem call_of_ok (hf : f e.store = .ok (a, store)) :
    e.isBlocked = true ∧ Refuses (call f) e ∨ Gives (call f) e a store := by
  cases hblocked : e.isBlocked with
  | true => exact .inl ⟨rfl, refuses_call hblocked f⟩
  | false => exact .inr (gives_call hblocked hf)

theorem read_of_ok (f : Store → Except StoreError α) (hf : f e.store = .ok a) :
    e.isBlocked = true ∧ Refuses (read f) e ∨ Gives (read f) e a e.store := by
  apply call_of_ok
  rw [hf]
  rfl

theorem Gives.of_call (h : Gives (call f) e a store) : f e.store = .ok (a, store) := by
  rcases call_cases f e with hrefuses | ⟨a', store', hf, hgives⟩
  · exact absurd h hrefuses.not_gives
  · obtain ⟨rfl, rfl⟩ := h.unique hgives
    exact hf

theorem Gives.of_read {f : Store → Except StoreError α} (h : Gives (read f) e a store) :
    f e.store = .ok a ∧ store = e.store := by
  have hcall := h.of_call
  cases hf : f e.store with
  | error error =>
    rw [hf] at hcall
    cases hcall
  | ok result =>
    rw [hf] at hcall
    cases hcall
    exact ⟨rfl, rfl⟩

theorem run_call (h : e.fault = none) (f : Store → Except StoreError (α × Store)) :
    Action.run (call f) e = call.reach f e := by
  obtain ⟨store, fault, stats⟩ := e
  simp only at h
  subst h
  rfl

theorem run_call_of_ok (h : e.fault = none) (hf : f e.store = .ok (a, store)) :
    Action.run (call f) e = (.ok a, { e with store }) := by
  rw [run_call h, call.reach, hf]

theorem run_tracked_call (h : e.fault = none) (f : Store → Except StoreError (α × Store))
    (op : Operation) :
    ∃ stats, Action.run (tracked op (call f)) e =
      match f e.store with
      | .ok (a, store) => (.ok a, { e with store, stats })
      | .error error => (.error error, { e with stats }) := by
  have hcall := run_call h f
  unfold call.reach at hcall
  cases hf : f e.store with
  | ok result =>
    rw [hf] at hcall
    exact run_tracked hcall op
  | error error =>
    rw [hf] at hcall
    exact run_tracked hcall op

theorem run_read (h : e.fault = none) (f : Store → Except StoreError α) :
    Action.run (read f) e = (f e.store, e) := by
  rw [read, run_call h, call.reach]
  cases f e.store <;> rfl

end Calls

end Action

end PushQueue
