import PushQueue.Proofs.Router
import PushQueue.Proofs.Runs

/-!
Which connection of a subscriber owns its router row. Connections register and detach in any order,
and what a row still holds of an old one does not keep a newer one out: once the newest connection
has registered, the row is its own, whatever the older ones do before and after.
-/

namespace PushQueue.Router

variable {r : Router} {u : SubscriberId} {name routerType : String} {e : Engine}
  {row : Option RouterContent}

structure Connection where
  node : String
  connectedAt : UInt64
deriving DecidableEq

def Connection.record (c : Connection) (u : SubscriberId) (routerType : String)
    (others : RouterRecord) : RouterRecord :=
  { others with subscriber := u, routerType, node := some c.node, connectedAt := c.connectedAt }

inductive Call where
  | register (connection : Connection) (others : RouterRecord)
  | detach (connection : Connection)

namespace Call

def connection : Call → Connection
  | .register c _ | .detach c => c

def action (r : Router) (u : SubscriberId) (routerType : String) : Call → Action Bool
  | .register c others => r.register (c.record u routerType others)
  | .detach c => r.detachNode u c.node c.connectedAt

/-- What is left of the subscriber's row by a call that reaches it. -/
def onRow (name : String) (u : SubscriberId) (routerType : String) :
    Call → Option RouterContent → Option RouterContent
  | .register c others, none => some (rowOf (c.record u routerType others))
  | .register c others, some stored =>
    let new := rowOf (c.record u routerType others)
    some (if stored.yieldsTo new && !Store.offersShadowed name then new.mergeInto stored
      else stored)
  | .detach c, row =>
    row.map fun stored =>
      if stored.node = some c.node && stored.connectedAt = c.connectedAt then
        { stored with node := none }
      else stored

end Call

structure Request where
  call : Call
  fault : Option Fault := none

namespace Request

def isBlocked (request : Request) : Bool := request.fault.any fun fault => fault.after = 0

def serve (r : Router) (u : SubscriberId) (routerType : String) (request : Request)
    (e : Engine) : Except StoreError Bool × Engine :=
  (request.call.action r u routerType).run { e with fault := request.fault }

def onRow (name : String) (u : SubscriberId) (routerType : String) (row : Option RouterContent)
    (request : Request) : Option RouterContent :=
  if request.isBlocked then row else request.call.onRow name u routerType row

end Request

def serveAll (r : Router) (u : SubscriberId) (routerType : String) (e : Engine)
    (requests : List Request) : Engine :=
  e.after (fun e request => (request.serve r u routerType e).2) requests

section Serving

theorem Call.cases_of_holds (hrow : Holds r u e.store row) (routerType : String) (call : Call) :
    e.isBlocked = true ∧ (call.action r u routerType).Refuses e ∨
      ∃ answer store, (call.action r u routerType).Gives e answer store ∧
        Holds r u store (call.onRow r.handle.table u routerType row) := by
  obtain ⟨rows, hrows, rfl⟩ := Store.getRouter_eq_ok_iff.1 hrow
  cases call with
  | register c others =>
    obtain ⟨written, rows', hput, hget⟩ := Store.exists_rows_putRouter hrows
      (r.handle.partition u) (rowOf (c.record u routerType others))
    rcases Action.call_of_ok hput with ⟨hblocked, hrefuses⟩ | hgives
    · exact .inl ⟨hblocked, hrefuses.tracked _⟩
    · refine .inr ⟨_, _, hgives.tracked _, .setTable hrows ?_⟩
      rw [hget]
      cases rows.get? (r.handle.partition u) <;> rfl
  | detach c =>
    obtain ⟨changed, rows', hclear, hget⟩ := Store.exists_rows_changeRouter hrows
      (r.handle.partition u)
      (fun row => row.node = some c.node && row.connectedAt = c.connectedAt)
      (fun row => { row with node := none })
    rcases Action.call_of_ok hclear with ⟨hblocked, hrefuses⟩ | hgives
    · exact .inl ⟨hblocked, hrefuses.tracked _⟩
    · exact .inr ⟨_, _, hgives.tracked _, .setTable hrows hget⟩

theorem Request.holds_serve (hrow : Holds r u e.store row) (routerType : String)
    (request : Request) :
    Holds r u (request.serve r u routerType e).2.store
      (request.onRow r.handle.table u routerType row) := by
  unfold Request.onRow
  cases hblocked : request.isBlocked with
  | true =>
    have hblocked : ({ e with fault := request.fault } : Engine).isBlocked = true := hblocked
    have hrefuses : (request.call.action r u routerType).Refuses
        { e with fault := request.fault } := by
      cases request.call <;> exact (Action.refuses_call hblocked _).tracked _
    obtain ⟨error, e', hrun, hstore⟩ := hrefuses
    rw [Request.serve, hrun, if_pos rfl, hstore]
    exact hrow
  | false =>
    rcases Call.cases_of_holds (e := { e with fault := request.fault }) hrow routerType
        request.call with ⟨hblocked', -⟩ | ⟨answer, store, ⟨e', hrun, rfl⟩, hrow'⟩
    · rw [Request.isBlocked] at hblocked
      simp [Engine.isBlocked, hblocked] at hblocked'
    · rw [Request.serve, hrun, if_neg (by decide)]
      exact hrow'

theorem holds_serveAll (hrow : Holds r u e.store row) (routerType : String)
    (requests : List Request) :
    Holds r u (serveAll r u routerType e requests).store
      (requests.foldl (Request.onRow r.handle.table u routerType) row) :=
  Engine.follows (R := fun e row => Holds r u e.store row) hrow fun request _ _ _ hrow =>
    request.holds_serve hrow routerType

end Serving

section Ownership

variable {newest : Connection} {requests : List Request}

/-- Whatever the row holds comes from connections before this one. -/
def Precedes (routerType : String) (newest : Connection) (row : Option RouterContent) : Prop :=
  ∀ stored ∈ row, stored.routerType = routerType ∧ stored.connectedAt < newest.connectedAt

def OwnedBy (newest : Connection) (row : Option RouterContent) : Prop :=
  ∃ stored, row = some stored ∧ stored.node = some newest.node ∧
    stored.connectedAt = newest.connectedAt

theorem Precedes.onRow {call : Call} (h : Precedes routerType newest row)
    (hcall : call.connection.connectedAt < newest.connectedAt) :
    Precedes routerType newest (call.onRow name u routerType row) := by
  rintro stored hstored
  cases call with
  | register c others =>
    cases row with
    | none =>
      cases hstored
      exact ⟨rfl, hcall⟩
    | some before =>
      have hbefore := h before rfl
      cases hstored
      split
      · exact ⟨rfl, hcall⟩
      · exact hbefore
  | detach c =>
    obtain ⟨before, rfl, rfl⟩ := Option.map_eq_some_iff.1 hstored
    have hbefore := h before rfl
    split
    · exact hbefore
    · exact hbefore

theorem Precedes.ownedBy_register (h : Precedes routerType newest row) (others : RouterRecord)
    (hname : Store.offersShadowed name = false) :
    OwnedBy newest ((Call.register newest others).onRow name u routerType row) := by
  cases row with
  | none => exact ⟨_, rfl, rfl, rfl⟩
  | some before =>
    obtain ⟨htype, hlt⟩ := h before rfl
    have hyields : before.yieldsTo (rowOf (newest.record u routerType others)) = true := by
      simp [RouterContent.yieldsTo, rowOf, Connection.record, htype, hlt]
    refine ⟨_, rfl, ?_⟩
    rw [hyields, hname]
    exact ⟨rfl, rfl⟩

theorem OwnedBy.onRow {call : Call} (h : OwnedBy newest row)
    (hle : call.connection.connectedAt ≤ newest.connectedAt)
    (hdetach : ∀ c, call = .detach c → c.connectedAt ≠ newest.connectedAt) :
    OwnedBy newest (call.onRow name u routerType row) := by
  obtain ⟨stored, rfl, hnode, hconnected⟩ := h
  refine ⟨stored, ?_, hnode, hconnected⟩
  cases call with
  | register c others =>
    have hkeeps : stored.yieldsTo (rowOf (c.record u routerType others)) = false := by
      have hnot : ¬ newest.connectedAt < c.connectedAt := UInt64.not_lt.2 hle
      simp [RouterContent.yieldsTo, rowOf, Connection.record, hnode, hconnected, hnot]
    simp only [Call.onRow, hkeeps, Bool.false_and, Bool.false_eq_true, ↓reduceIte]
  | detach c =>
    have hne : newest.connectedAt ≠ c.connectedAt := (hdetach c rfl).symm
    simp [Call.onRow, hconnected, hne]

/-- Calls of the connections that compete with the newest: of itself no detach, of others nothing
that is as late. -/
def Competes (newest : Connection) (request : Request) : Prop :=
  (∃ others, request.call = .register newest others) ∨
    request.call.connection.connectedAt < newest.connectedAt

def Registers (c : Connection) (request : Request) : Prop :=
  request.isBlocked = false ∧ ∃ others, request.call = .register c others

theorem Precedes.onRow_of_competes {request : Request} (h : Precedes routerType newest row)
    (hcompetes : Competes newest request) (hnot : ¬ Registers newest request) :
    Precedes routerType newest (request.onRow name u routerType row) := by
  unfold Request.onRow
  split
  next => exact h
  next hopen =>
    rcases hcompetes with hregister | hlt
    · exact absurd ⟨Bool.eq_false_iff.2 hopen, hregister⟩ hnot
    · exact h.onRow hlt

theorem OwnedBy.onRow_of_competes {request : Request} (h : OwnedBy newest row)
    (hcompetes : Competes newest request) :
    OwnedBy newest (request.onRow name u routerType row) := by
  unfold Request.onRow
  split
  · exact h
  · rcases hcompetes with ⟨others, hcall⟩ | hlt
    · rw [hcall]
      exact h.onRow (UInt64.le_refl _) nofun
    · refine h.onRow (UInt64.le_of_lt hlt) ?_
      rintro c hcall heq
      rw [hcall, Call.connection, heq] at hlt
      exact UInt64.lt_irrefl _ hlt

theorem OwnedBy.foldl (h : OwnedBy newest row) (hrequests : ∀ request ∈ requests,
    Competes newest request) :
    OwnedBy newest (requests.foldl (Request.onRow name u routerType) row) := by
  induction requests generalizing row with
  | nil => exact h
  | cons request rest ih =>
    obtain ⟨hrequest, hrest⟩ := List.forall_mem_cons.1 hrequests
    exact ih (h.onRow_of_competes hrequest) hrest

/-- Up to the first registration of the newest connection that gets through the row is of older
ones, and from then on it is its own. -/
theorem Precedes.ownedBy_foldl (h : Precedes routerType newest row) (u : SubscriberId)
    (hname : Store.offersShadowed name = false)
    (hrequests : ∀ request ∈ requests, Competes newest request)
    (hregistered : ∃ request ∈ requests, Registers newest request) :
    OwnedBy newest (requests.foldl (Request.onRow name u routerType) row) := by
  induction requests generalizing row with
  | nil => simp at hregistered
  | cons request rest ih =>
    obtain ⟨hrequest, hrest⟩ := List.forall_mem_cons.1 hrequests
    rw [List.foldl_cons]
    by_cases hfirst : Registers newest request
    · obtain ⟨hopen, others, hcall⟩ := hfirst
      have howned := h.ownedBy_register (u := u) others hname
      rw [Request.onRow, hopen, if_neg (by decide), hcall]
      exact howned.foldl hrest
    · obtain ⟨found, hfound, hregisters⟩ := hregistered
      have hmem : found ∈ rest := by
        rcases List.mem_cons.1 hfound with rfl | hmem
        · exact absurd hregisters hfirst
        · exact hmem
      exact ih (h.onRow_of_competes hrequest hfirst) hrest ⟨found, hmem, hregisters⟩

end Ownership

section Contests

/-- Requests of connections of which no two began at one time. Each of them registers at least once,
and the newest does not detach. -/
structure Contest (connections : List Connection) (newest : Connection)
    (requests : List Request) : Prop where
  distinct : ∀ a ∈ connections, ∀ b ∈ connections, a.connectedAt = b.connectedAt → a = b
  newest_mem : newest ∈ connections
  le_newest : ∀ c ∈ connections, c.connectedAt ≤ newest.connectedAt
  connection_mem : ∀ request ∈ requests, request.call.connection ∈ connections
  registers : ∀ c ∈ connections, ∃ request ∈ requests, Registers c request
  not_detached : ∀ request ∈ requests, request.call ≠ .detach newest

theorem Contest.competes {connections : List Connection} {newest : Connection}
    {requests : List Request} (h : Contest connections newest requests) :
    ∀ request ∈ requests, Competes newest request := by
  intro request hrequest
  have hmem := h.connection_mem request hrequest
  by_cases hnewest : request.call.connection = newest
  · left
    cases hcall : request.call with
    | register c others =>
      rw [hcall] at hnewest
      exact ⟨others, congrArg (Call.register · others) hnewest⟩
    | detach c =>
      rw [hcall] at hnewest
      exact absurd (hcall.trans (congrArg Call.detach hnewest)) (h.not_detached request hrequest)
  · right
    exact UInt64.lt_of_le_of_ne (h.le_newest _ hmem)
      fun heq => hnewest (h.distinct _ hmem _ h.newest_mem heq)

def early : Connection := ⟨"n1", 5⟩

def late : Connection := ⟨"n2", 9⟩

def Connection.registration (c : Connection) (u : SubscriberId) : Request where
  call := .register c (.fresh ⟨0⟩ u)

def registrations (u : SubscriberId) : List Request :=
  [early.registration u, late.registration u]

theorem contest_registrations (u : SubscriberId) :
    Contest [early, late] late (registrations u) where
  distinct := by decide
  newest_mem := by decide
  le_newest := by decide
  connection_mem := by simp [registrations, Connection.registration, Call.connection]
  registers := by simp [registrations, Connection.registration, Registers, Request.isBlocked]
  not_detached := by simp [registrations, Connection.registration]

def emptyEngine (r : Router) : Engine where
  store := ⟨SortedMap.empty.insert r.handle.table (.routers .empty)⟩

theorem holds_emptyEngine (r : Router) (u : SubscriberId) :
    Holds r u (emptyEngine r).store none := by
  have hrows : Store.routerRows (emptyEngine r).store r.handle.table = .ok .empty :=
    Store.routerRows_eq_ok_iff.2 (Store.table_setTable r.handle.valid_table ⟨.empty⟩ _)
  exact Store.getRouter_eq_ok_iff.2 ⟨_, hrows, rfl⟩

/-- Whatever the connections of a subscriber do, and in whatever order, a table without a row for it
has at last the row of the newest one; but not where the name of the table shadows the rows that are
offered. -/
theorem newest_connection_owns_row_iff (r : Router) (u : SubscriberId) :
    (∀ routerType e connections newest requests, Holds r u e.store none →
      Contest connections newest requests → ∃ stored,
        Holds r u (serveAll r u routerType e requests).store (some stored) ∧
          stored.node = some newest.node ∧ stored.connectedAt = newest.connectedAt) ↔
      r.handle.table ≠ "excluded" := by
  constructor
  · intro howned hname
    have hempty := holds_emptyEngine r u
    obtain ⟨stored, hstored, hnode, -⟩ := howned RouterRecord.defaultRouterType _ _ _ _ hempty
      (contest_registrations u)
    have hrow := holds_serveAll hempty RouterRecord.defaultRouterType (registrations u)
    -- The later registration assigns the row of the earlier one to itself.
    rw [hname] at hrow
    rw [Holds, hrow] at hstored
    cases hstored
    have hne : early.node ≠ late.node := by decide
    exact hne (Option.some.inj hnode)
  · intro hname routerType e connections newest requests hrow hcontest
    have hname : Store.offersShadowed r.handle.table = false := decide_eq_false hname
    have hprecedes : Precedes routerType newest none :=
      fun stored hstored => absurd hstored (Option.not_mem_none stored)
    obtain ⟨stored, hstored, howned⟩ := hprecedes.ownedBy_foldl u hname hcontest.competes
      (hcontest.registers newest hcontest.newest_mem)
    refine ⟨stored, ?_, howned⟩
    rw [← hstored]
    exact holds_serveAll hrow routerType requests

/-- Three connections, the newest of them the first to be beyond the signed numbers; another one at
its node detaches after it, and one comes back too late. -/
def reconnections : List Request :=
  [{ call := .register ⟨"a", 3⟩ (.fresh ⟨0⟩ ⟨⟨1⟩⟩) },
    { call := .detach ⟨"a", 3⟩ },
    { call := .register ⟨"b", 9223372036854775808⟩ (.fresh ⟨0⟩ ⟨⟨1⟩⟩) },
    { call := .register ⟨"b", 9223372036854775807⟩ (.fresh ⟨0⟩ ⟨⟨1⟩⟩) },
    { call := .detach ⟨"b", 9223372036854775807⟩ },
    { call := .register ⟨"a", 3⟩ (.fresh ⟨0⟩ ⟨⟨1⟩⟩), fault := some ⟨0, .transient "busy"⟩ }]

theorem newest_connection_owns_row_iff_reconnections :
    routers.handle.table ≠ "excluded" ∧
    Holds routers ⟨⟨1⟩⟩ (emptyEngine routers).store none ∧
    ∃ stored, Holds routers ⟨⟨1⟩⟩
        (serveAll routers ⟨⟨1⟩⟩ RouterRecord.defaultRouterType (emptyEngine routers)
          reconnections).store (some stored) ∧
      stored.node = some "b" ∧ stored.connectedAt = 9223372036854775808 := by
  have hname : routers.handle.table ≠ "excluded" := by decide
  have hempty := holds_emptyEngine routers ⟨⟨1⟩⟩
  have hcontest : Contest [⟨"a", 3⟩, ⟨"b", 9223372036854775807⟩, ⟨"b", 9223372036854775808⟩]
      ⟨"b", 9223372036854775808⟩ reconnections :=
    { distinct := by decide
      newest_mem := by decide
      le_newest := by decide
      connection_mem := by simp [reconnections, Call.connection]
      registers := by simp [reconnections, Registers, Request.isBlocked]
      not_detached := by simp [reconnections] }
  exact ⟨hname, hempty,
    (newest_connection_owns_row_iff routers ⟨⟨1⟩⟩).2 hname _ _ _ _ _ hempty hcontest⟩

theorem isValid_excluded : TableName.isValid "excluded" = true := by decide

def shadowed : Router where
  handle :=
    { table := "excluded"
      valid_table := isValid_excluded
      maxTtl_le := UInt64.le_refl maxRetention }
  buckets := LastConnect.defaultBuckets

/-- The newer connection registers, is told that it has, and the row is still the older one's. -/
theorem older_connection_keeps_shadowed_row :
    Holds shadowed ⟨⟨1⟩⟩ (emptyEngine shadowed).store none ∧
    Contest [early, late] late (registrations ⟨⟨1⟩⟩) ∧
    ((late.registration ⟨⟨1⟩⟩).serve shadowed ⟨⟨1⟩⟩ RouterRecord.defaultRouterType
      (serveAll shadowed ⟨⟨1⟩⟩ RouterRecord.defaultRouterType (emptyEngine shadowed)
        [early.registration ⟨⟨1⟩⟩])).1 = .ok true ∧
    ∃ stored, Holds shadowed ⟨⟨1⟩⟩
        (serveAll shadowed ⟨⟨1⟩⟩ RouterRecord.defaultRouterType (emptyEngine shadowed)
          (registrations ⟨⟨1⟩⟩)).store (some stored) ∧
      stored.node = some early.node ∧ stored.connectedAt = early.connectedAt := by
  refine ⟨holds_emptyEngine shadowed ⟨⟨1⟩⟩, contest_registrations ⟨⟨1⟩⟩, by decide +kernel,
    rowOf (early.record ⟨⟨1⟩⟩ RouterRecord.defaultRouterType (.fresh ⟨0⟩ ⟨⟨1⟩⟩)), ?_, rfl, rfl⟩
  unfold Holds
  decide +kernel

end Contests

end PushQueue.Router
