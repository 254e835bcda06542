import Sentinel.Dispatch
import Sentinel.Gates
import Sentinel.Limiter
import Sentinel.Runs

namespace Sentinel.Pipeline

open Runs Text Router Retry Limiter Dispatch
open Gates hiding Event

structure GatewayPipeline where
  routes : RouteMatcher
  maxBodySizeBytes : ℤ
  instanceId : String

/-- The mutable state behind a `GatewayPipeline`, the buckets in Redis apart. -/
structure Gateway where
  shared : Shared
  concurrency : ConcurrencyManager

structure Inbound where
  requestId : String
  tenantId : String
  method : String
  path : String
  headers : Dict String String
  params : Dict String String
  body : Bytes
  clientIp : String
  rateLimitPolicy : TokenBucketPolicy
  rateLimitKey : String
  retryPolicy : RetryPolicy

def payloadTooLarge (q : Inbound) : PipelineResult :=
  { statusCode := 413
    headers := Dict.empty.set "X-Request-ID" q.requestId
    body := bytes "\x7b\"error\":\x7b\"code\":\"PAYLOAD_TOO_LARGE\"\x7d\x7d"
    stageFailed := some "request_size_validation" }

def routeNotFound (q : Inbound) : PipelineResult :=
  { statusCode := 404
    headers := Dict.empty.set "X-Request-ID" q.requestId
    body := bytes "\x7b\"error\":\x7b\"code\":\"ROUTE_NOT_FOUND\"\x7d\x7d"
    stageFailed := some "route_matching" }

def rateLimited (q : Inbound) (decision : RateLimitDecision) : PipelineResult :=
  let retryAfterS := max 1 (Int.fdiv decision.retryAfterMs 1000)
  { statusCode := 429
    headers := (((Dict.empty.set "X-Request-ID" q.requestId).set
      "Retry-After" (toString retryAfterS)).set
      "X-RateLimit-Limit" (toString decision.limit)).set
      "X-RateLimit-Remaining" (toString decision.remaining)
    body := bytes
      "\x7b\"error\":\x7b\"code\":\"RATE_LIMITED\",\"message\":\"Rate limit exceeded\"\x7d\x7d"
    stageFailed := some "rate_limit" }

def overloaded (q : Inbound) (scope : String) : PipelineResult :=
  { statusCode := 503
    headers := (Dict.empty.set "X-Request-ID" q.requestId).set "Retry-After" "1"
    body := bytes
      "\x7b\"error\":\x7b\"code\":\"OVERLOADED\",\"message\":\"Server is at capacity\"\x7d\x7d"
    stageFailed := some ("backpressure:" ++ scope) }

def idsOf (q : Inbound) (route : RouteDefinition) : Ids :=
  ⟨q.tenantId, route.id, route.backendServiceId⟩

def callOf (p : GatewayPipeline) (q : Inbound) (route : RouteDefinition) : Call :=
  { requestId := q.requestId
    route
    method := q.method
    headers := q.headers
    params := q.params
    body := q.body
    clientIp := q.clientIp
    retryPolicy := q.retryPolicy
    instanceId := p.instanceId }

inductive Failure
  | cancelled
  | dispatch (e : Fault)

/-- Where `handle` stands: awaiting the limiter, awaiting a gate, in the dispatch, or left. -/
inductive Stage
  | limiting (route : RouteDefinition)
  | acquiring (route : RouteDefinition) (r : Request)
  | dispatching (route : RouteDefinition) (r : Request) (c : Control)
  | done (result : PipelineResult)
  | failed (e : Failure)

/-- `handle` up to its first `await`. It touches no shared state. -/
def handle (lib : StringLibrary) (p : GatewayPipeline) (q : Inbound) : Stage :=
  if p.maxBodySizeBytes < (q.body.length : ℤ) then .done (payloadTooLarge q)
  else
    match p.routes.match lib q.tenantId q.method q.path with
    | none => .done (routeNotFound q)
    | some route => .limiting route

inductive Resumption
  | reply (r : Option ScriptReply)
  | gate (w : Wake)
  | dispatch (s : Dispatch.Signal)
  | cancel

/-- The effect of the code of `handle` between two awaits. -/
structure Stretch where
  gateway : Gateway
  events : List Event
  stage : Stage

/-- Inside the four gates: they are left when the dispatch is. -/
def inside (route : RouteDefinition) (r : Request) (m : ConcurrencyManager) (seg : Segment) :
    Stretch :=
  match seg.control with
  | .returned result => ⟨⟨seg.shared, (unwind r.held .completed m r).1⟩, seg.events, .done result⟩
  | .raised e => ⟨⟨seg.shared, (unwind r.held .raised m r).1⟩, seg.events, .failed (.dispatch e)⟩
  | c => ⟨⟨seg.shared, m⟩, seg.events, .dispatching route r c⟩

/-- The gates after `w` and, once the last of them is entered, the dispatch. -/
def throughGates (p : GatewayPipeline) (q : Inbound) (m : Moment) (g : Gateway)
    (route : RouteDefinition) (r : Request) (w : Wake) : Option Stretch :=
  match progress g.concurrency r w with
  | none => none
  | some (concurrency, r') =>
    match r'.phase with
    | .waiting _ | .granted _ => some ⟨⟨g.shared, concurrency⟩, [], .acquiring route r'⟩
    | .inside => some (inside route r' concurrency (enter (callOf p q route) m g.shared))
    | .left (.backpressureRejected scope) =>
      some ⟨⟨g.shared, concurrency⟩, [], .done (overloaded q scope)⟩
    | .left _ => some ⟨⟨g.shared, concurrency⟩, [], .failed .cancelled⟩

def proceed (lib : StringLibrary) (p : GatewayPipeline) (q : Inbound) (m : Moment) (g : Gateway) :
    Stage → Resumption → Option Stretch
  | .limiting route, .reply r =>
    let decision := checkTokenBucket q.rateLimitPolicy r
    if !decision.allowed then some ⟨g, [], .done (rateLimited q decision)⟩
    else some ⟨⟨g.shared, g.concurrency.register (idsOf q route)⟩, [],
      .acquiring route { ids := idsOf q route }⟩
  | .limiting _, .cancel => some ⟨g, [], .failed .cancelled⟩
  | .acquiring route r, .gate w => throughGates p q m g route r w
  | .dispatching route r c, .dispatch s =>
    (resume lib (callOf p q route) m g.shared c s).map (inside route r g.concurrency)
  | _, _ => none

section

variable {lib : StringLibrary} {p : GatewayPipeline} {q : Inbound} {m : Moment} {g : Gateway}
  {stage : Stage} {signal : Resumption} {s : Stretch} {route : RouteDefinition} {r : Request}
  {w : Wake}

theorem handle_cases (lib : StringLibrary) (p : GatewayPipeline) (q : Inbound) :
    (p.maxBodySizeBytes < (q.body.length : ℤ) ∧ handle lib p q = .done (payloadTooLarge q)) ∨
    ((q.body.length : ℤ) ≤ p.maxBodySizeBytes ∧
      (p.routes.match lib q.tenantId q.method q.path = none ∧
        handle lib p q = .done (routeNotFound q) ∨
      ∃ route, p.routes.match lib q.tenantId q.method q.path = some route ∧
        handle lib p q = .limiting route)) := by
  by_cases hsize : p.maxBodySizeBytes < (q.body.length : ℤ)
  · exact .inl ⟨hsize, if_pos hsize⟩
  · refine .inr ⟨le_of_not_gt hsize, ?_⟩
    cases hmatch : p.routes.match lib q.tenantId q.method q.path with
    | none => exact .inl ⟨rfl, by simp only [handle, hsize, ↓reduceIte, hmatch]⟩
    | some route => exact .inr ⟨route, rfl, by simp only [handle, hsize, ↓reduceIte, hmatch]⟩

theorem inside_cases (route : RouteDefinition) (r : Request) (concurrency : ConcurrencyManager)
    (seg : Segment) :
    (∃ result concurrency', seg.control = .returned result ∧ inside route r concurrency seg =
      ⟨⟨seg.shared, concurrency'⟩, seg.events, .done result⟩) ∨
    (∃ e concurrency', seg.control = .raised e ∧ inside route r concurrency seg =
      ⟨⟨seg.shared, concurrency'⟩, seg.events, .failed (.dispatch e)⟩) ∨
    inside route r concurrency seg =
      ⟨⟨seg.shared, concurrency⟩, seg.events, .dispatching route r seg.control⟩ := by
  cases hc : seg.control with
  | returned result => exact .inl ⟨result, _, rfl, by rw [inside, hc]⟩
  | raised e => exact .inr (.inl ⟨e, _, rfl, by rw [inside, hc]⟩)
  | forwarding l | sleeping l => exact .inr (.inr (by rw [inside, hc]))

theorem inside_shared (route : RouteDefinition) (r : Request) (concurrency : ConcurrencyManager)
    (seg : Segment) : (inside route r concurrency seg).gateway.shared = seg.shared := by
  obtain ⟨_, _, -, he⟩ | ⟨_, _, -, he⟩ | he := inside_cases route r concurrency seg
  all_goals rw [he]

theorem inside_events (route : RouteDefinition) (r : Request) (concurrency : ConcurrencyManager)
    (seg : Segment) : (inside route r concurrency seg).events = seg.events := by
  obtain ⟨_, _, -, he⟩ | ⟨_, _, -, he⟩ | he := inside_cases route r concurrency seg
  all_goals rw [he]

theorem throughGates_cases (h : throughGates p q m g route r w = some s) :
    ∃ concurrency r', progress g.concurrency r w = some (concurrency, r') ∧
      (s = ⟨⟨g.shared, concurrency⟩, [], .acquiring route r'⟩ ∨
      (r'.phase = .inside ∧
        s = inside route r' concurrency (enter (callOf p q route) m g.shared)) ∨
      (∃ scope, r'.phase = .left (.backpressureRejected scope) ∧
        s = ⟨⟨g.shared, concurrency⟩, [], .done (overloaded q scope)⟩) ∨
      s = ⟨⟨g.shared, concurrency⟩, [], .failed .cancelled⟩) := by
  cases hp : progress g.concurrency r w with
  | none => simp [throughGates, hp] at h
  | some pair =>
    obtain ⟨concurrency, r'⟩ := pair
    refine ⟨concurrency, r', rfl, ?_⟩
    simp only [throughGates, hp] at h
    cases hr : r'.phase with
    | waiting l | granted l =>
      simp only [hr, Option.some.injEq] at h
      exact .inl h.symm
    | inside =>
      simp only [hr, Option.some.injEq] at h
      exact .inr (.inl ⟨rfl, h.symm⟩)
    | left exit =>
      cases exit with
      | backpressureRejected scope =>
        simp only [hr, Option.some.injEq] at h
        exact .inr (.inr (.inl ⟨scope, rfl, h.symm⟩))
      | completed | raised | cancelled =>
        simp only [hr, Option.some.injEq] at h
        exact .inr (.inr (.inr h.symm))

theorem proceed_cases (h : proceed lib p q m g stage signal = some s) :
    (∃ route reply, (stage = .limiting route ∧ signal = .reply reply) ∧
      ((checkTokenBucket q.rateLimitPolicy reply).allowed = false ∧
        s = ⟨g, [], .done (rateLimited q (checkTokenBucket q.rateLimitPolicy reply))⟩ ∨
      (checkTokenBucket q.rateLimitPolicy reply).allowed = true ∧
        s = ⟨⟨g.shared, g.concurrency.register (idsOf q route)⟩, [],
          .acquiring route { ids := idsOf q route }⟩)) ∨
    (∃ route, stage = .limiting route ∧ s = ⟨g, [], .failed .cancelled⟩) ∨
    (∃ route r w, (stage = .acquiring route r ∧ signal = .gate w) ∧
      throughGates p q m g route r w = some s) ∨
    (∃ route r c signal' seg, stage = .dispatching route r c ∧
      resume lib (callOf p q route) m g.shared c signal' = some seg ∧
      s = inside route r g.concurrency seg) := by
  cases stage with
  | limiting route =>
    cases signal with
    | reply reply =>
      simp only [proceed] at h
      cases ha : (checkTokenBucket q.rateLimitPolicy reply).allowed with
      | false =>
        simp only [ha, Bool.not_false, ↓reduceIte, Option.some.injEq] at h
        exact .inl ⟨route, reply, ⟨rfl, rfl⟩, .inl ⟨ha, h.symm⟩⟩
      | true =>
        simp only [ha, Bool.not_true, Bool.false_eq_true, ↓reduceIte, Option.some.injEq] at h
        exact .inl ⟨route, reply, ⟨rfl, rfl⟩, .inr ⟨ha, h.symm⟩⟩
    | cancel =>
      simp only [proceed, Option.some.injEq] at h
      exact .inr (.inl ⟨route, rfl, h.symm⟩)
    | gate | dispatch => simp only [proceed, reduceCtorEq] at h
  | acquiring route r =>
    cases signal with
    | gate w =>
      simp only [proceed] at h
      exact .inr (.inr (.inl ⟨route, r, w, ⟨rfl, rfl⟩, h⟩))
    | reply | dispatch | cancel => simp only [proceed, reduceCtorEq] at h
  | dispatching route r c =>
    cases signal with
    | dispatch signal' =>
      simp only [proceed, Option.map_eq_some_iff] at h
      obtain ⟨seg, hseg, hs⟩ := h
      exact .inr (.inr (.inr ⟨route, r, c, signal', seg, rfl, hseg, hs.symm⟩))
    | reply | gate | cancel => simp only [proceed, reduceCtorEq] at h
  | done | failed => simp only [proceed, reduceCtorEq] at h

end

structure Handling where
  stage : Stage
  trace : List Event := []

/-- One request on its own: the gateway it finds when it is resumed can be any. -/
def next (lib : StringLibrary) (p : GatewayPipeline) (q : Inbound) (t : Handling)
    (i : Gateway × Moment × Resumption) : Option Handling :=
  (proceed lib p q i.2.1 i.1 t.stage i.2.2).map (fun s => ⟨s.stage, t.trace ++ s.events⟩)

def step (lib : StringLibrary) (p : GatewayPipeline) (q : Inbound) (t : Handling)
    (i : Gateway × Moment × Resumption) (t' : Handling) : Prop :=
  next lib p q t i = some t'

def start (lib : StringLibrary) (p : GatewayPipeline) (q : Inbound) : Handling :=
  ⟨handle lib p q, []⟩

end Sentinel.Pipeline
