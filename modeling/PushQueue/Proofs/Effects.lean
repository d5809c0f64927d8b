import PushQueue.Proofs.Engine

/-!
What actions do that are built from engine calls. A relation between the store before an action and
the store after it holds once it holds of every call, and so does one between the stores of two runs
of the same action.
-/

namespace PushQueue.Action

variable {α β : Type}

inductive Built (P : ∀ {α : Type}, (Store → Except StoreError (α × Store)) → Prop) :
    ∀ {α : Type}, Action α → Prop
  | pure {α : Type} (a : α) : Built P (pure a)
  | ofExcept {α β : Type} {x : Except StoreError α} {next : α → Action β} :
    (∀ a, x = .ok a → Built P (next a)) → Built P (ofExcept x >>= next)
  | bind {α β : Type} {act : Action α} {next : α → Action β} :
    Built P act → (∀ a, Built P (next a)) → Built P (act >>= next)
  | tracked {α : Type} {act : Action α} (op : Operation) : Built P act → Built P (tracked op act)
  | call {α : Type} {f : Store → Except StoreError (α × Store)} : P f → Built P (call f)

variable {P : ∀ {α : Type}, (Store → Except StoreError (α × Store)) → Prop}
  {R : Store → Store → Prop} {act : Action α} {e : Engine}

section Steps

theorem Built.steps (h : Built P act) (hrefl : ∀ s, R s s)
    (htrans : ∀ {s₁ s₂ s₃}, R s₁ s₂ → R s₂ s₃ → R s₁ s₃)
    (hcall : ∀ {α : Type} {f : Store → Except StoreError (α × Store)}, P f →
      ∀ {s a s'}, f s = .ok (a, s') → R s s')
    (e : Engine) : R e.store (Action.run act e).2.store := by
  induction h generalizing e with
  | pure a => exact hrefl _
  | ofExcept hnext ih =>
    rw [run_ofExcept_bind]
    split
    next a => exact ih a rfl e
    next => exact hrefl _
  | bind hact hnext ihact ihnext =>
    rw [run_bind]
    have hstep := ihact e
    split
    next a e₁ hrun =>
      rw [hrun] at hstep
      exact htrans hstep (ihnext a e₁)
    next error e₁ hrun =>
      rw [hrun] at hstep
      exact hstep
  | tracked op hact ih => exact ih e
  | call hf =>
    rename_i f
    rcases call_cases f e with ⟨error, e', hrun, hstore⟩ | ⟨a, store, hok, e', hrun, hstore⟩
    · rw [hrun, hstore]
      exact hrefl _
    · rw [hrun, hstore]
      exact hcall hf hok

end Steps

section Pairs

inductive Matches (R : Store → Store → Prop) :
    Except StoreError (α × Store) → Except StoreError (α × Store) → Prop
  | error (error : StoreError) : Matches R (.error error) (.error error)
  | ok (a : α) {s₁ s₂ : Store} : R s₁ s₂ → Matches R (.ok (a, s₁)) (.ok (a, s₂))

structure Alike (R : Store → Store → Prop) (e₁ e₂ : Engine) : Prop where
  fault : e₁.fault = e₂.fault
  store : R e₁.store e₂.store

theorem alike_reach {f : Store → Except StoreError (α × Store)} {e₁ e₂ : Engine}
    (hfault : e₁.fault = e₂.fault) (hstore : R e₁.store e₂.store)
    (hf : Matches R (f e₁.store) (f e₂.store)) :
    (call.reach f e₁).1 = (call.reach f e₂).1 ∧
      Alike R (call.reach f e₁).2 (call.reach f e₂).2 := by
  unfold call.reach
  revert hf
  generalize f e₁.store = outcome₁, f e₂.store = outcome₂
  rintro (_ | ⟨a, hafter⟩)
  · exact ⟨rfl, hfault, hstore⟩
  · exact ⟨rfl, hfault, hafter⟩

theorem alike_call {f : Store → Except StoreError (α × Store)} {e₁ e₂ : Engine}
    (h : Alike R e₁ e₂) (hf : Matches R (f e₁.store) (f e₂.store)) :
    (Action.run (call f) e₁).1 = (Action.run (call f) e₂).1 ∧
      Alike R (Action.run (call f) e₁).2 (Action.run (call f) e₂).2 := by
  obtain ⟨s₁, fault, stats₁⟩ := e₁
  obtain ⟨s₂, _, stats₂⟩ := e₂
  obtain ⟨rfl, hstore⟩ := h
  match fault with
  | none => exact alike_reach rfl hstore hf
  | some ⟨0, error⟩ => exact ⟨rfl, rfl, hstore⟩
  | some ⟨n + 1, error⟩ => exact alike_reach rfl hstore hf

theorem Built.pairs (h : Built P act)
    (hcall : ∀ {α : Type} {f : Store → Except StoreError (α × Store)}, P f →
      ∀ {s₁ s₂}, R s₁ s₂ → Matches R (f s₁) (f s₂))
    {e₁ e₂ : Engine} (he : Alike R e₁ e₂) :
    (Action.run act e₁).1 = (Action.run act e₂).1 ∧
      Alike R (Action.run act e₁).2 (Action.run act e₂).2 := by
  induction h generalizing e₁ e₂ with
  | pure a => exact ⟨rfl, he⟩
  | ofExcept hnext ih =>
    rename_i x next
    rw [run_ofExcept_bind, run_ofExcept_bind]
    cases x with
    | error error => exact ⟨rfl, he⟩
    | ok a => exact ih a rfl he
  | bind hact hnext ihact ihnext =>
    rename_i act next
    obtain ⟨hresult, halike⟩ := ihact he
    rw [run_bind, run_bind]
    cases h₁ : Action.run act e₁ with
    | mk result₁ e₁' =>
      cases h₂ : Action.run act e₂ with
      | mk result₂ e₂' =>
        rw [h₁, h₂] at hresult halike
        obtain rfl : result₁ = result₂ := hresult
        cases result₁ with
        | error error => exact ⟨rfl, halike⟩
        | ok a => exact ihnext a halike
  | tracked op hact ih =>
    obtain ⟨hresult, halike⟩ := ih he
    exact ⟨hresult, halike.fault, halike.store⟩
  | call hf => exact alike_call he (hcall hf he.store)

end Pairs

section Calm

structure Calmer (e₁ e₂ : Engine) : Prop where
  store : e₁.store = e₂.store
  fault : e₂.fault = none

def Inherits (e e' : Engine) : Prop := ∀ f ∈ e'.fault, ∃ f₀ ∈ e.fault, f.error = f₀.error

theorem Inherits.trans {e e' e'' : Engine} (h : Inherits e e') (h' : Inherits e' e'') :
    Inherits e e'' := by
  intro f hf
  obtain ⟨f₁, hf₁, herror₁⟩ := h' f hf
  obtain ⟨f₀, hf₀, herror₀⟩ := h f₁ hf₁
  exact ⟨f₀, hf₀, herror₁.trans herror₀⟩

theorem calm_reach (f : Store → Except StoreError (α × Store)) {e₁ e₂ : Engine}
    (he : Calmer e₁ e₂) :
    (call.reach f e₁).1 = (call.reach f e₂).1 ∧ Calmer (call.reach f e₁).2 (call.reach f e₂).2 ∧
      (call.reach f e₁).2.fault = e₁.fault := by
  unfold call.reach
  rw [he.store]
  cases f e₂.store with
  | error error => exact ⟨rfl, he, rfl⟩
  | ok result => exact ⟨rfl, ⟨rfl, he.fault⟩, rfl⟩

theorem calm_call (f : Store → Except StoreError (α × Store)) {e₁ e₂ : Engine}
    (he : Calmer e₁ e₂) :
    (∃ fault ∈ e₁.fault, (Action.run (call f) e₁).1 = .error fault.error) ∨
      (Action.run (call f) e₁).1 = (Action.run (call f) e₂).1 ∧
        Calmer (Action.run (call f) e₁).2 (Action.run (call f) e₂).2 ∧
        Inherits e₁ (Action.run (call f) e₁).2 := by
  obtain ⟨s, fault, stats₁⟩ := e₁
  obtain ⟨_, _, stats₂⟩ := e₂
  obtain ⟨rfl, rfl⟩ := he
  match fault with
  | none =>
    have he : Calmer ⟨s, none, stats₁⟩ ⟨s, none, stats₂⟩ := ⟨rfl, rfl⟩
    obtain ⟨hresult, hcalmer, hfault⟩ := calm_reach f he
    exact .inr ⟨hresult, hcalmer, fun fault h => ⟨fault, hfault ▸ h, rfl⟩⟩
  | some ⟨0, error⟩ => exact .inl ⟨_, rfl, rfl⟩
  | some ⟨n + 1, error⟩ =>
    have he : Calmer ⟨s, some ⟨n, error⟩, stats₁⟩ ⟨s, none, stats₂⟩ := ⟨rfl, rfl⟩
    obtain ⟨hresult, hcalmer, hfault⟩ := calm_reach f he
    refine .inr ⟨hresult, hcalmer, fun fault h => ⟨_, rfl, ?_⟩⟩
    have hpending : some (Fault.mk n error) = some fault := hfault.symm.trans h
    rw [← Option.some.inj hpending]

/-- A run ends with the failure to come, or as it would have without it. -/
theorem Built.calm (h : Built P act) {e₁ e₂ : Engine} (he : Calmer e₁ e₂) :
    (∃ f ∈ e₁.fault, (Action.run act e₁).1 = .error f.error) ∨
      (Action.run act e₁).1 = (Action.run act e₂).1 ∧
        Calmer (Action.run act e₁).2 (Action.run act e₂).2 ∧
        Inherits e₁ (Action.run act e₁).2 := by
  induction h generalizing e₁ e₂ with
  | pure a => exact .inr ⟨rfl, he, fun f hf => ⟨f, hf, rfl⟩⟩
  | ofExcept hnext ih =>
    rename_i x next
    rw [run_ofExcept_bind, run_ofExcept_bind]
    cases x with
    | error error => exact .inr ⟨rfl, he, fun f hf => ⟨f, hf, rfl⟩⟩
    | ok a => exact ih a rfl he
  | bind hact hnext ihact ihnext =>
    rename_i act next
    rw [run_bind, run_bind]
    rcases ihact he with ⟨f, hf, hresult⟩ | ⟨hresult, hcalmer, hinherits⟩
    · cases h₁ : Action.run act e₁ with
      | mk result₁ e₁' =>
        rw [h₁] at hresult
        obtain rfl : result₁ = .error f.error := hresult
        exact .inl ⟨f, hf, rfl⟩
    · cases h₁ : Action.run act e₁ with
      | mk result₁ e₁' =>
        cases h₂ : Action.run act e₂ with
        | mk result₂ e₂' =>
          rw [h₁, h₂] at hresult hcalmer
          rw [h₁] at hinherits
          obtain rfl : result₁ = result₂ := hresult
          cases result₁ with
          | error error => exact .inr ⟨rfl, hcalmer, hinherits⟩
          | ok a =>
            rcases ihnext a hcalmer with ⟨f, hf, hresult⟩ | ⟨hresult, hcalmer', hinherits'⟩
            · obtain ⟨f₀, hf₀, herror⟩ := hinherits f hf
              exact .inl ⟨f₀, hf₀, herror ▸ hresult⟩
            · exact .inr ⟨hresult, hcalmer', hinherits.trans hinherits'⟩
  | tracked op hact ih =>
    rcases ih he with hfault | ⟨hresult, hcalmer, hinherits⟩
    · exact .inl hfault
    · exact .inr ⟨hresult, ⟨hcalmer.store, hcalmer.fault⟩, hinherits⟩
  | call hf => exact calm_call _ he

end Calm

end PushQueue.Action
