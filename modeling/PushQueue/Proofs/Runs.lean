import Mathlib.Data.List.Basic
import PushQueue.Engine

/-!
Runs: steps of any kind, taken one after the other on an engine. A model that follows every step
follows the run, and what every step preserves holds after the run.
-/

namespace PushQueue.Engine

variable {ι σ α : Type} {step : Engine → ι → Engine} {e e' : Engine} {i : ι} {steps : List ι}

def after (step : Engine → ι → Engine) (e : Engine) (steps : List ι) : Engine := steps.foldl step e

/-- The steps, each with the engine that it is taken on. -/
def trace (step : Engine → ι → Engine) : Engine → List ι → List (Engine × ι)
  | _, [] => []
  | e, i :: rest => (e, i) :: trace step (step e i) rest

/-- The steps that are answered without an error. -/
def accepted (serve : ι → Engine → Except StoreError α × Engine) (e : Engine) (steps : List ι) :
    List ι :=
  ((trace (fun e i => (serve i e).2) e steps).filter fun taken =>
    (serve taken.2 taken.1).1.isOk).map Prod.snd

theorem after_append (step : Engine → ι → Engine) (e : Engine) (before later : List ι) :
    after step e (before ++ later) = after step (after step e before) later :=
  List.foldl_append

theorem trace_append (step : Engine → ι → Engine) (e : Engine) (before later : List ι) :
    trace step e (before ++ later) = trace step e before ++ trace step (after step e before) later := by
  induction before generalizing e with
  | nil => rfl
  | cons i rest ih => exact congrArg _ (ih (step e i))

theorem forall_mem_trace_append {P : Engine × ι → Prop} {before later : List ι} :
    (∀ taken ∈ trace step e (before ++ i :: later), P taken) ↔
      (∀ taken ∈ trace step e before, P taken) ∧ P (after step e before, i) ∧
        ∀ taken ∈ trace step (step (after step e before) i) later, P taken := by
  rw [trace_append, List.forall_mem_append, trace, List.forall_mem_cons]

theorem map_snd_trace (step : Engine → ι → Engine) (e : Engine) (steps : List ι) :
    (trace step e steps).map Prod.snd = steps := by
  induction steps generalizing e with
  | nil => rfl
  | cons i rest ih => exact congrArg _ (ih (step e i))

theorem mem_of_mem_trace (h : (e', i) ∈ trace step e steps) : i ∈ steps := by
  rw [← map_snd_trace step e steps]
  exact List.mem_map_of_mem h

/-- A model that looks at the engine of each step, too, follows the run. -/
theorem follows_trace {R : Engine → σ → Prop} (next : σ → Engine × ι → σ) {s : σ} (h : R e s)
    (hstep : ∀ taken ∈ trace step e steps, ∀ s, R taken.1 s →
      R (step taken.1 taken.2) (next s taken)) :
    R (after step e steps) ((trace step e steps).foldl next s) := by
  induction steps generalizing e s with
  | nil => exact h
  | cons i rest ih =>
    obtain ⟨hfirst, hrest⟩ := List.forall_mem_cons.1 hstep
    exact ih (hfirst s h) hrest

theorem follows {R : Engine → σ → Prop} {next : σ → ι → σ} {s : σ} (h : R e s)
    (hstep : ∀ i ∈ steps, ∀ e s, R e s → R (step e i) (next s i)) :
    R (after step e steps) (steps.foldl next s) :=
  List.foldl_rel h fun i hi e s => hstep i hi e s

theorem holds_after_trace {P : Engine → Prop} (h : P e)
    (hstep : ∀ taken ∈ trace step e steps, P taken.1 → P (step taken.1 taken.2)) :
    P (after step e steps) :=
  follows_trace (R := fun e (_ : Unit) => P e) (fun s _ => s) (s := ()) h
    fun taken htaken _ => hstep taken htaken

theorem holds_after {P : Engine → Prop} (h : P e)
    (hstep : ∀ i ∈ steps, ∀ e, P e → P (step e i)) : P (after step e steps) :=
  List.foldlRecOn steps step h fun e he i hi => hstep i hi e he

/-- If it can be told from the step alone whether it is answered without an error, a run accepts
what it would accept anywhere. -/
theorem accepted_eq_filter {serve : ι → Engine → Except StoreError α × Engine} {P : Engine → Prop}
    {admitted : ι → Bool} (h : P e)
    (hserve : ∀ i e, P e → (serve i e).1.isOk = admitted i ∧ P (serve i e).2) (steps : List ι) :
    accepted serve e steps = steps.filter admitted := by
  induction steps generalizing e with
  | nil => rfl
  | cons i rest ih =>
    obtain ⟨hanswer, hnext⟩ := hserve i e h
    rw [accepted, trace, List.filter_cons, List.filter_cons, hanswer, ← ih hnext]
    split <;> rfl

end PushQueue.Engine
