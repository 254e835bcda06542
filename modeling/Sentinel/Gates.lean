import Sentinel.Dict
import Sentinel.Runs
import Mathlib.Algebra.Order.Ring.Int

namespace Sentinel.Gates

open Runs

structure ConcurrencyLimits where
  maxGlobal : ℕ := 1000
  maxPerTenant : ℕ := 100
  maxPerRoute : ℕ := 200
  maxPerBackend : ℕ := 100
  queueTimeoutMs : ℤ := 500
  deriving DecidableEq

/-- `permits` is the value of the gate's `asyncio.Semaphore`. -/
structure BoundedConcurrencyGate where
  name : String
  limit : ℕ
  queueTimeoutMs : ℤ
  permits : ℕ
  inFlight : ℤ
  deriving DecidableEq

namespace BoundedConcurrencyGate

def new (name : String) (limit : ℕ) (queueTimeoutMs : ℤ) : BoundedConcurrencyGate :=
  { name, limit, queueTimeoutMs, permits := limit, inFlight := 0 }

/-- The semaphore grants a permit to one of its waiters, whichever. -/
def grant (g : BoundedConcurrencyGate) : BoundedConcurrencyGate :=
  { g with permits := g.permits - 1 }

/-- A wait that ends by timeout or cancellation after the grant hands the permit back. -/
def refund (g : BoundedConcurrencyGate) : BoundedConcurrencyGate :=
  { g with permits := g.permits + 1 }

def enter (g : BoundedConcurrencyGate) : BoundedConcurrencyGate :=
  { g with inFlight := g.inFlight + 1 }

def leave (g : BoundedConcurrencyGate) : BoundedConcurrencyGate :=
  { g with inFlight := g.inFlight - 1, permits := g.permits + 1 }

end BoundedConcurrencyGate

inductive Level
  | global
  | tenant
  | route
  | backend
  deriving DecidableEq

structure Ids where
  tenantId : String
  routeId : String
  backendId : String
  deriving DecidableEq

def gateName (ids : Ids) : Level → String
  | .global => "global"
  | .tenant => "tenant:" ++ ids.tenantId
  | .route => "route:" ++ ids.routeId
  | .backend => "backend:" ++ ids.backendId

def limitOf (limits : ConcurrencyLimits) : Level → ℕ
  | .global => limits.maxGlobal
  | .tenant => limits.maxPerTenant
  | .route => limits.maxPerRoute
  | .backend => limits.maxPerBackend

structure ConcurrencyManager where
  limits : ConcurrencyLimits
  globalGate : BoundedConcurrencyGate
  tenantGates : Dict String BoundedConcurrencyGate
  routeGates : Dict String BoundedConcurrencyGate
  backendGates : Dict String BoundedConcurrencyGate
  deriving DecidableEq

namespace ConcurrencyManager

def new (limits : ConcurrencyLimits) : ConcurrencyManager :=
  { limits
    globalGate := .new "global" limits.maxGlobal limits.queueTimeoutMs
    tenantGates := .empty
    routeGates := .empty
    backendGates := .empty }

def getOrCreate (m : ConcurrencyManager) (registry : Dict String BoundedConcurrencyGate)
    (key : String) (limit : ℕ) : Dict String BoundedConcurrencyGate :=
  match registry.get? key with
  | some _ => registry
  | none => registry.set key (.new key limit m.limits.queueTimeoutMs)

/-- The gates that `acquire_all` looks up, or creates, before its first wait. -/
def register (m : ConcurrencyManager) (ids : Ids) : ConcurrencyManager :=
  { m with
    tenantGates := m.getOrCreate m.tenantGates (gateName ids .tenant) m.limits.maxPerTenant
    routeGates := m.getOrCreate m.routeGates (gateName ids .route) m.limits.maxPerRoute
    backendGates := m.getOrCreate m.backendGates (gateName ids .backend) m.limits.maxPerBackend }

def gate? (m : ConcurrencyManager) : Level → String → Option BoundedConcurrencyGate
  | .global, name => if name = "global" then some m.globalGate else none
  | .tenant, name => m.tenantGates.get? name
  | .route, name => m.routeGates.get? name
  | .backend, name => m.backendGates.get? name

def update (m : ConcurrencyManager) (f : BoundedConcurrencyGate → BoundedConcurrencyGate)
    (l : Level) (name : String) : ConcurrencyManager :=
  match l with
  | .global => if name = "global" then { m with globalGate := f m.globalGate } else m
  | .tenant => { m with tenantGates := m.tenantGates.modify name f }
  | .route => { m with routeGates := m.routeGates.modify name f }
  | .backend => { m with backendGates := m.backendGates.modify name f }

end ConcurrencyManager

inductive Exit
  | completed
  | raised
  | cancelled
  | backpressureRejected (scope : String)
  deriving DecidableEq

/-- Where a request stands in the four nested `async with` blocks of `acquire_all`: waiting for
the gate of a level, granted its permit but not yet resumed, inside all four, or gone. -/
inductive Phase
  | waiting (l : Level)
  | granted (l : Level)
  | inside
  | left (exit : Exit)
  deriving DecidableEq

/-- `held` are the gates the request has entered and not left, in that order. -/
structure Request where
  ids : Ids
  phase : Phase := .waiting .global
  held : List Level := []
  deriving DecidableEq

def outer : Level → List Level
  | .global => []
  | .tenant => [.global]
  | .route => [.global, .tenant]
  | .backend => [.global, .tenant, .route]

def after : Level → Phase
  | .global => .waiting .tenant
  | .tenant => .waiting .route
  | .route => .waiting .backend
  | .backend => .inside

/-- Leave the blocks `ls`, the innermost first. -/
def unwind (ls : List Level) (exit : Exit) (m : ConcurrencyManager) (r : Request) :
    ConcurrencyManager × Request :=
  (ls.foldr (fun l m => m.update .leave l (gateName r.ids l)) m,
    { r with phase := .left exit, held := ls.foldr (fun l held => held.erase l) r.held })

/-- What the event loop may do next for a request: the semaphore grants its permit, the task
resumes with it, the wait times out, the task is cancelled, the body returns or raises. -/
inductive Wake
  | grant
  | resume
  | timeout
  | cancel
  | finish
  | fail
  deriving DecidableEq

def progress (m : ConcurrencyManager) (r : Request) :
    Wake → Option (ConcurrencyManager × Request)
  | .grant =>
    match r.phase with
    | .waiting l =>
      match m.gate? l (gateName r.ids l) with
      -- `wait_for` with no time to wait gives up before the semaphore is asked
      | some g => if 0 < g.queueTimeoutMs ∧ 0 < g.permits then
          some (m.update .grant l (gateName r.ids l), { r with phase := .granted l }) else none
      | none => none
    | _ => none
  | .resume =>
    match r.phase with
    | .granted l =>
      some (m.update .enter l (gateName r.ids l),
        { r with phase := after l, held := r.held ++ [l] })
    | _ => none
  | .timeout =>
    match r.phase with
    | .waiting l => some (unwind (outer l) (.backpressureRejected (gateName r.ids l)) m r)
    | .granted l => some (unwind (outer l) (.backpressureRejected (gateName r.ids l))
        (m.update .refund l (gateName r.ids l)) r)
    | _ => none
  | .cancel =>
    match r.phase with
    | .waiting l => some (unwind (outer l) .cancelled m r)
    | .granted l => some (unwind (outer l) .cancelled
        (m.update .refund l (gateName r.ids l)) r)
    | .inside => some (unwind [.global, .tenant, .route, .backend] .cancelled m r)
    | .left _ => none
  | .finish =>
    match r.phase with
    | .inside => some (unwind [.global, .tenant, .route, .backend] .completed m r)
    | _ => none
  | .fail =>
    match r.phase with
    | .inside => some (unwind [.global, .tenant, .route, .backend] .raised m r)
    | _ => none

structure System where
  manager : ConcurrencyManager
  requests : List Request := []
  deriving DecidableEq

inductive Event
  | acquireAll (ids : Ids)
  | wake (i : ℕ) (w : Wake)
  deriving DecidableEq

/-- `acquire_all` up to its first wait. -/
def acquireAll (s : System) (ids : Ids) : System :=
  ⟨s.manager.register ids, s.requests ++ [{ ids := ids }]⟩

def next (s : System) : Event → Option System
  | .acquireAll ids => some (acquireAll s ids)
  | .wake i w =>
    match s.requests[i]? with
    | some r => (progress s.manager r w).map (fun p => ⟨p.1, s.requests.set i p.2⟩)
    | none => none

def step (s : System) (e : Event) (t : System) : Prop := next s e = some t

def init (limits : ConcurrencyLimits) : System := { manager := .new limits }

end Sentinel.Gates
