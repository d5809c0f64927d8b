import PushQueue.CallStats
import PushQueue.Store.Messages
import PushQueue.Store.Routers

/-!
Actions on the store. Every access to the store is one engine call, which may be made to fail before
it reaches the store; actions that belong to an operation are counted, however they end.
-/

namespace PushQueue

/-- A failure to come: this many engine calls go through before it. -/
structure Fault where
  after : Nat
  error : StoreError
deriving DecidableEq

structure Engine where
  store : Store := .empty
  fault : Option Fault := none
  stats : CallStats := .new false
deriving Inhabited

/-- An action that gives a result or an error, and the engine after it in either case. -/
abbrev Action (α : Type) := ExceptT StoreError (StateM Engine) α

namespace Action

def run {α : Type} (act : Action α) (e : Engine) : Except StoreError α × Engine :=
  StateT.run (ExceptT.run act) e

def ofExcept {α : Type} : Except StoreError α → Action α
  | .ok a => pure a
  | .error e => throw e

/-- One engine call; a store that is not given back stays as it was. -/
def call {α : Type} (f : Store → Except StoreError (α × Store)) : Action α :=
  ExceptT.mk fun e =>
    match e.fault with
    | some ⟨0, error⟩ => (.error error, { e with fault := none })
    | some ⟨n + 1, error⟩ => reach { e with fault := some ⟨n, error⟩ }
    | none => reach e
where
  reach (e : Engine) : Except StoreError α × Engine :=
    match f e.store with
    | .ok (a, store) => (.ok a, { e with store })
    | .error error => (.error error, e)

def read {α : Type} (f : Store → Except StoreError α) : Action α :=
  call fun s => (f s).map fun a => (a, s)

def tracked {α : Type} (op : Operation) (act : Action α) : Action α :=
  ExceptT.mk fun e =>
    let (result, e) := act.run e
    let failedTransiently :=
      match result with
      | .error error => error.retryable
      | .ok _ => false
    (result, { e with stats := e.stats.record op failedTransiently })

/-- Run an action on other counters, and give the counters after it along with its result; the
counters of the engine stay as they were. -/
def withStats {α : Type} (stats : CallStats) (act : Action α) : Action (α × CallStats) :=
  ExceptT.mk fun e =>
    let (result, after) := act.run { e with stats }
    (result.map fun a => (a, after.stats), { after with stats := e.stats })

end Action

end PushQueue
