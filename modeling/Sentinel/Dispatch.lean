import Sentinel.Breaker
import Sentinel.Retry
import Sentinel.Router

namespace Sentinel.Dispatch

open Text Breaker Retry Router

abbrev Bytes := List UInt8

def bytes (s : String) : Bytes := s.toUTF8.toList

/-- The exception classes of httpx that a request can raise; all but `invalidURL` derive from
`HTTPError`. -/
inductive HttpxError
  | httpError
  | requestError
  | transportError
  | timeoutException
  | connectTimeout
  | readTimeout
  | writeTimeout
  | poolTimeout
  | networkError
  | connectError
  | readError
  | writeError
  | closeError
  | protocolError
  | localProtocolError
  | remoteProtocolError
  | proxyError
  | unsupportedProtocol
  | decodingError
  | tooManyRedirects
  | httpStatusError
  | invalidURL
  deriving DecidableEq

namespace HttpxError

def isConnectFailure : HttpxError → Bool
  | .connectError | .connectTimeout => true
  | _ => false

def isTimeoutException : HttpxError → Bool
  | .timeoutException | .connectTimeout | .readTimeout | .writeTimeout | .poolTimeout => true
  | _ => false

end HttpxError

structure Response where
  statusCode : ℕ
  headers : Dict String String
  content : Bytes

inductive Outcome
  | response (r : Response)
  | raised (e : HttpxError)
  | cancelled

structure PipelineResult where
  statusCode : ℕ
  headers : Dict String String
  body : Bytes
  stageFailed : Option String := none

/-- The arguments of `_dispatch_with_resilience`, with the pipeline's own `instance_id`. -/
structure Call where
  requestId : String
  route : RouteDefinition
  method : String
  headers : Dict String String
  params : Dict String String
  body : Bytes
  clientIp : String
  retryPolicy : RetryPolicy
  instanceId : String

def Call.serviceId (d : Call) : String := d.route.backendServiceId

/-- The arguments of `ProxyForwarder.forward`, with the instance that was selected. -/
structure Forward where
  selected : BackendInstance
  method : String
  targetUrl : String
  headers : Dict String String
  params : Dict String String
  body : Bytes
  requestId : String
  instanceId : String
  clientIp : String
  perAttemptTimeoutS : ℚ

/-- What a dispatch does that others can see, with the clock reading it goes by. -/
inductive Event
  | beforeRequest (clock : ℚ) (admitted : Bool)
  | forward (clock : ℚ) (f : Forward)
  | received (o : Outcome)
  | recordSuccess
  | recordFailure
  | opened (clock : ℚ)
  | sleep (clock : ℚ) (backoffMs : ℚ)

structure Shared where
  breakers : Dict String CircuitBreaker
  selector : WeightedRoundRobinSelector

namespace Shared

/-- `_breaker_for`: a breaker that is not there yet is a fresh one. -/
def breakerFor (sh : Shared) (serviceId : String) : CircuitBreaker :=
  (sh.breakers.get? serviceId).getD { name := serviceId }

def setBreaker (sh : Shared) (serviceId : String) (b : CircuitBreaker) : Shared :=
  { sh with breakers := sh.breakers.set serviceId b }

def recordFailure (sh : Shared) (serviceId : String) (clock : ℚ) :
    Shared × List Event × Except BreakerError Unit :=
  let b := sh.breakerFor serviceId
  let (b', result) := Breaker.recordFailure clock b
  (sh.setBreaker serviceId b',
    .recordFailure :: (if b.state ≠ .open ∧ b'.state = .open then [.opened clock] else []), result)

end Shared

theorem Shared.recordFailure_events (sh : Shared) (serviceId : String) (clock : ℚ) :
    ∃ rest, (sh.recordFailure serviceId clock).2.1 = .recordFailure :: rest ∧
      ∀ e ∈ rest, e = .opened clock := by
  refine ⟨_, rfl, fun e he => ?_⟩
  split_ifs at he
  · exact List.mem_singleton.mp he
  · exact absurd he List.not_mem_nil

theorem recordFailure_no_forward (sh : Shared) (serviceId : String) (clock : ℚ) :
    ∀ clock' f, .forward clock' f ∉ (sh.recordFailure serviceId clock).2.1 := by
  obtain ⟨rest, he, hrest⟩ := sh.recordFailure_events serviceId clock
  intro clock' f hf
  rw [he] at hf
  obtain hf | hf := List.mem_cons.mp hf
  · cases hf
  · cases hrest _ hf

/-- What the event loop and the rest of the process supply while one stretch of code runs: the
successive clock readings, the instances, and the random draws. -/
structure Moment where
  clock : ℕ → ℚ
  mono : Monotone clock
  fleet : Fleet
  shuffle : Shuffle
  draw : Draw

structure Locals where
  attempt : ℕ
  deadline : DeadlineTracker
  lastStatus : ℕ := 502
  lastErrorBody : Bytes := bytes "\x7b\"error\":\x7b\"code\":\"BAD_GATEWAY\"\x7d\x7d"

inductive Fault
  | breaker (e : BreakerError)
  | httpx (e : HttpxError)
  | cancelled

/-- Where a dispatch stands: awaiting `forward`, awaiting its backoff, or left. -/
inductive Control
  | forwarding (l : Locals)
  | sleeping (l : Locals)
  | returned (r : PipelineResult)
  | raised (e : Fault)

/-- The effect of the code between two awaits. -/
structure Segment where
  shared : Shared
  events : List Event
  control : Control

def requestIdHeader (d : Call) : Dict String String := Dict.empty.set "X-Request-ID" d.requestId

def circuitOpen (d : Call) : PipelineResult :=
  { statusCode := 503
    headers := requestIdHeader d
    body := bytes
      "\x7b\"error\":\x7b\"code\":\"CIRCUIT_OPEN\",\"message\":\"Backend circuit is open\"\x7d\x7d"
    stageFailed := some "circuit_breaker" }

def noHealthyBackend (d : Call) : PipelineResult :=
  { statusCode := 503
    headers := requestIdHeader d
    body := bytes "\x7b\"error\":\x7b\"code\":\"NO_HEALTHY_BACKEND\"\x7d\x7d"
    stageFailed := some "backend_selection" }

def exhausted (d : Call) (l : Locals) : PipelineResult :=
  { statusCode := l.lastStatus
    headers := requestIdHeader d
    body := l.lastErrorBody
    stageFailed := some "proxy" }

def passedOn (d : Call) (r : Response) : PipelineResult :=
  { statusCode := r.statusCode
    headers := (requestIdHeader d).merge r.headers
    body := r.content }

/-- Go on to `c`, unless the call before it raised. -/
def settle (result : Except BreakerError Unit) (c : Control) : Control :=
  match result with
  | .ok () => c
  | .error e => .raised (.breaker e)

def forwardOf (d : Call) (selected : BackendInstance) (remainingS : ℚ) : Forward :=
  { selected
    method := d.method
    targetUrl := selected.url ++ rstrip d.route.pathPattern '*'
    headers := d.headers
    params := d.params
    body := d.body
    requestId := d.requestId
    instanceId := d.instanceId
    clientIp := d.clientIp
    perAttemptTimeoutS := min remainingS (d.route.timeoutMs / 1000) }

/-- The loop from its condition to the `await` of `forward`. -/
def attempt (d : Call) (m : Moment) (l : Locals) (sh : Shared) : Segment :=
  if (l.attempt : ℤ) < d.retryPolicy.maxAttempts then
    let l := { l with attempt := l.attempt + 1 }
    let before := beforeRequest (m.clock 1) (sh.breakerFor d.serviceId)
    let sh := sh.setBreaker d.serviceId before.1
    match before.2 with
    | .error _ => ⟨sh, [.beforeRequest (m.clock 1) false], .returned (circuitOpen d)⟩
    | .ok () =>
      let admitted := Event.beforeRequest (m.clock 1) true
      let instances := (m.fleet.byService.get? d.serviceId).getD []
      let chosen := sh.selector.select m.fleet m.shuffle d.serviceId instances
      let sh := { sh with selector := chosen.1 }
      match chosen.2 with
      | none =>
        let failure := sh.recordFailure d.serviceId (m.clock 2)
        ⟨failure.1, admitted :: failure.2.1, settle failure.2.2 (.returned (noHealthyBackend d))⟩
      | some ref =>
        let remainingS := l.deadline.remainingSeconds (m.clock 2)
        if remainingS ≤ 0 then
          let failure := sh.recordFailure d.serviceId (m.clock 3)
          ⟨failure.1, admitted :: failure.2.1, settle failure.2.2 (.returned (exhausted d l))⟩
        else
          ⟨sh, [admitted, .forward (m.clock 3) (forwardOf d (m.fleet.get ref) remainingS)],
            .forwarding l⟩
  else ⟨sh, [], .returned (exhausted d l)⟩

def failureRead (d : Call) (m : Moment) (sh : Shared) : CircuitBreaker :=
  readState (m.clock 1) ((sh.recordFailure d.serviceId (m.clock 0)).1.breakerFor d.serviceId)

/-- The rest of the loop after a failed attempt, to the `await` of the backoff. -/
def failed (lib : StringLibrary) (d : Call) (m : Moment) (l : Locals) (o : Outcome)
    (failureKind : FailureKind) (sh : Shared) : Segment :=
  let failure := sh.recordFailure d.serviceId (m.clock 0)
  match failure.2.2 with
  | .error e => ⟨failure.1, .received o :: failure.2.1, .raised (.breaker e)⟩
  | .ok () =>
    let b := failureRead d m sh
    let sh := failure.1.setBreaker d.serviceId b
    let giveUp : Segment := ⟨sh, .received o :: failure.2.1, .returned (exhausted d l)⟩
    if ¬isRetryable lib d.method failureKind d.retryPolicy (b.state = .open) then giveUp
    else if d.retryPolicy.maxAttempts ≤ (l.attempt : ℤ) then giveUp
    else
      let backoffMs := computeBackoffMs m.draw l.attempt d.retryPolicy.baseBackoffMs
      if ¬l.deadline.hasBudgetFor (m.clock 2) backoffMs then giveUp
      else ⟨sh, .received o :: failure.2.1 ++ [.sleep (m.clock 2) backoffMs], .sleeping l⟩

/-- The loop from the end of the `await` of `forward`. -/
def received (lib : StringLibrary) (d : Call) (m : Moment) (l : Locals) (o : Outcome)
    (sh : Shared) : Segment :=
  match o with
  | .response r =>
    let failureKind := classifyHttpStatus r.statusCode
    if failureKind = .success ∨ r.statusCode < 500 then
      if r.statusCode < 500 then
        ⟨sh.setBreaker d.serviceId (recordSuccess (sh.breakerFor d.serviceId)),
          [.received o, .recordSuccess], .returned (passedOn d r)⟩
      else ⟨sh, [.received o], .returned (passedOn d r)⟩
    else
      failed lib d m { l with lastStatus := r.statusCode, lastErrorBody := r.content } o
        failureKind sh
  | .raised e =>
    if e.isConnectFailure then failed lib d m l o .connectionError sh
    else if e.isTimeoutException then failed lib d m l o .timeout sh
    else ⟨sh, [.received o], .raised (.httpx e)⟩
  | .cancelled => ⟨sh, [.received o], .raised .cancelled⟩

/-- `_dispatch_with_resilience` to its first `await`. -/
def enter (d : Call) (m : Moment) (sh : Shared) : Segment :=
  attempt d m { attempt := 0, deadline := .new (m.clock 0) d.retryPolicy.totalDeadlineMs }
    (sh.setBreaker d.serviceId (sh.breakerFor d.serviceId))

inductive Signal
  | outcome (o : Outcome)
  | wake
  | cancel

def resume (lib : StringLibrary) (d : Call) (m : Moment) (sh : Shared) :
    Control → Signal → Option Segment
  | .forwarding l, .outcome o => some (received lib d m l o sh)
  | .sleeping l, .wake => some (attempt d m l sh)
  | .sleeping _, .cancel => some ⟨sh, [], .raised .cancelled⟩
  | _, _ => none

structure Task where
  call : Call
  control : Control
  trace : List Event

def Task.start (d : Call) (m : Moment) (sh : Shared) : Task :=
  ⟨d, (enter d m sh).control, (enter d m sh).events⟩

def Task.advance (t : Task) (seg : Segment) : Task := ⟨t.call, seg.control, t.trace ++ seg.events⟩

section

variable (lib : StringLibrary) (d : Call) (m : Moment) (l : Locals) (sh : Shared)

def chosen : WeightedRoundRobinSelector × Option Ref :=
  sh.selector.select m.fleet m.shuffle d.serviceId ((m.fleet.byService.get? d.serviceId).getD [])

def admitted (sel : WeightedRoundRobinSelector) : Shared :=
  { sh.setBreaker d.serviceId (beforeRequest (m.clock 1) (sh.breakerFor d.serviceId)).1 with
    selector := sel }

theorem attempt_cases :
    (d.retryPolicy.maxAttempts ≤ l.attempt ∧
      attempt d m l sh = ⟨sh, [], .returned (exhausted d l)⟩) ∨
    (∃ e, (beforeRequest (m.clock 1) (sh.breakerFor d.serviceId)).2 = .error e ∧
      attempt d m l sh = ⟨admitted d m sh sh.selector, [.beforeRequest (m.clock 1) false],
        .returned (circuitOpen d)⟩) ∨
    ((beforeRequest (m.clock 1) (sh.breakerFor d.serviceId)).2 = .ok () ∧
      ∃ sel clock r, (sel = (chosen d m sh).1 ∧
          (clock = m.clock 2 ∧ r = noHealthyBackend d ∧ (chosen d m sh).2 = none ∨
            clock = m.clock 3 ∧ r = exhausted d { l with attempt := l.attempt + 1 })) ∧
        attempt d m l sh = ⟨((admitted d m sh sel).recordFailure d.serviceId clock).1,
          .beforeRequest (m.clock 1) true ::
            ((admitted d m sh sel).recordFailure d.serviceId clock).2.1,
          settle ((admitted d m sh sel).recordFailure d.serviceId clock).2.2 (.returned r)⟩) ∨
    ((beforeRequest (m.clock 1) (sh.breakerFor d.serviceId)).2 = .ok () ∧
      ∃ sel ref, ((l.attempt : ℤ) < d.retryPolicy.maxAttempts ∧ chosen d m sh = (sel, some ref) ∧
          0 < l.deadline.remainingSeconds (m.clock 2)) ∧
        attempt d m l sh = ⟨admitted d m sh sel,
          [.beforeRequest (m.clock 1) true, .forward (m.clock 3)
            (forwardOf d (m.fleet.get ref) (l.deadline.remainingSeconds (m.clock 2)))],
          .forwarding { l with attempt := l.attempt + 1 }⟩) := by
  by_cases hmax : (l.attempt : ℤ) < d.retryPolicy.maxAttempts
  · cases hbefore : (beforeRequest (m.clock 1) (sh.breakerFor d.serviceId)).2 with
    | error e =>
      exact .inr (.inl ⟨e, rfl, by simp only [attempt, hmax, ↓reduceIte, hbefore]; rfl⟩)
    | ok =>
      cases hchosen : (chosen d m sh).2 with
      | none =>
        refine .inr (.inr (.inl ⟨rfl, (chosen d m sh).1, m.clock 2, noHealthyBackend d,
          ⟨rfl, .inl ⟨rfl, rfl, rfl⟩⟩, ?_⟩))
        simp only [attempt, hmax, ↓reduceIte, hbefore, Shared.setBreaker, chosen] at hchosen ⊢
        simp only [hchosen]
        rfl
      | some ref =>
        by_cases hrem : l.deadline.remainingSeconds (m.clock 2) ≤ 0
        · refine .inr (.inr (.inl ⟨rfl, (chosen d m sh).1, m.clock 3,
            exhausted d { l with attempt := l.attempt + 1 }, ⟨rfl, .inr ⟨rfl, rfl⟩⟩, ?_⟩))
          simp only [attempt, hmax, ↓reduceIte, hbefore, Shared.setBreaker, chosen] at hchosen ⊢
          simp only [hchosen, hrem, ↓reduceIte]
          rfl
        · refine .inr (.inr (.inr ⟨rfl, (chosen d m sh).1, ref,
            ⟨hmax, Prod.ext rfl hchosen, lt_of_not_ge hrem⟩, ?_⟩))
          simp only [attempt, hmax, ↓reduceIte, hbefore, Shared.setBreaker, chosen] at hchosen ⊢
          simp only [hchosen, hrem, ↓reduceIte]
          rfl
  · exact .inl ⟨le_of_not_gt hmax, by simp [attempt, hmax]⟩

theorem failed_cases (o : Outcome) (failureKind : FailureKind) :
    (∃ e, failed lib d m l o failureKind sh = ⟨(sh.recordFailure d.serviceId (m.clock 0)).1,
      .received o :: (sh.recordFailure d.serviceId (m.clock 0)).2.1, .raised (.breaker e)⟩) ∨
    failed lib d m l o failureKind sh =
      ⟨(sh.recordFailure d.serviceId (m.clock 0)).1.setBreaker d.serviceId (failureRead d m sh),
        .received o :: (sh.recordFailure d.serviceId (m.clock 0)).2.1, .returned (exhausted d l)⟩ ∨
    (∃ backoffMs, backoffMs = computeBackoffMs m.draw l.attempt d.retryPolicy.baseBackoffMs ∧
      isRetryable lib d.method failureKind d.retryPolicy ((failureRead d m sh).state = .open) ∧
      (l.attempt : ℤ) < d.retryPolicy.maxAttempts ∧
      l.deadline.hasBudgetFor (m.clock 2) backoffMs ∧
      failed lib d m l o failureKind sh =
        ⟨(sh.recordFailure d.serviceId (m.clock 0)).1.setBreaker d.serviceId (failureRead d m sh),
          .received o :: (sh.recordFailure d.serviceId (m.clock 0)).2.1 ++
            [.sleep (m.clock 2) backoffMs], .sleeping l⟩) := by
  cases hresult : (sh.recordFailure d.serviceId (m.clock 0)).2.2 with
  | error e => exact .inl ⟨e, by simp only [failed, hresult]⟩
  | ok =>
    by_cases hretry : isRetryable lib d.method failureKind d.retryPolicy
        ((failureRead d m sh).state = .open)
    · by_cases hmax : d.retryPolicy.maxAttempts ≤ l.attempt
      · refine .inr (.inl ?_)
        simp [failed, hresult, hretry, hmax]
      · by_cases hbudget : l.deadline.hasBudgetFor (m.clock 2)
            (computeBackoffMs m.draw l.attempt d.retryPolicy.baseBackoffMs)
        · refine .inr (.inr ⟨_, rfl, hretry, lt_of_not_ge hmax, hbudget, ?_⟩)
          simp [failed, hresult, hretry, hmax, hbudget]
        · refine .inr (.inl ?_)
          simp [failed, hresult, hretry, hmax, hbudget]
    · refine .inr (.inl ?_)
      simp [failed, hresult, hretry]

def handled : Outcome → Bool
  | .response r => r.statusCode < 600
  | .raised e => e.isConnectFailure || e.isTimeoutException
  | .cancelled => false

def failureOf : Outcome → Option FailureKind
  | .response r => some (classifyHttpStatus r.statusCode)
  | .raised e =>
    if e.isConnectFailure then some .connectionError
    else if e.isTimeoutException then some .timeout
    else none
  | .cancelled => none

theorem received_cases (o : Outcome) :
    (∃ r, o = .response r ∧ r.statusCode < 500 ∧ received lib d m l o sh =
      ⟨sh.setBreaker d.serviceId (recordSuccess (sh.breakerFor d.serviceId)),
        [.received o, .recordSuccess], .returned (passedOn d r)⟩) ∨
    (handled o = true ∧ (∀ r, o = .response r → 500 ≤ r.statusCode) ∧
      ∃ l' failureKind, (l'.attempt = l.attempt ∧ l'.deadline = l.deadline ∧
          failureOf o = some failureKind) ∧
        received lib d m l o sh = failed lib d m l' o failureKind sh) ∨
    (handled o = false ∧ ∃ c, ((∃ r, c = .returned (passedOn d r)) ∨ ∃ e, c = .raised e) ∧
      received lib d m l o sh = ⟨sh, [.received o], c⟩) := by
  cases o with
  | response r =>
    by_cases hlow : r.statusCode < 500
    · exact .inl ⟨r, rfl, hlow, by simp [received, hlow]⟩
    · by_cases hhigh : r.statusCode < 600
      · have hkind : classifyHttpStatus r.statusCode ≠ .success := by
          rw [Ne, classifyHttpStatus_eq_success_iff]
          omega
        refine .inr (.inl ⟨by simpa [handled] using hhigh, ?_,
          { l with lastStatus := r.statusCode, lastErrorBody := r.content },
          classifyHttpStatus r.statusCode, ⟨rfl, rfl, rfl⟩, by simp [received, hkind, hlow]⟩)
        intro r' hr
        cases hr
        exact le_of_not_gt hlow
      · have hkind : classifyHttpStatus r.statusCode = .success :=
          (classifyHttpStatus_eq_success_iff _).mpr (.inr (le_of_not_gt hhigh))
        exact .inr (.inr ⟨by simpa [handled] using hhigh, .returned (passedOn d r),
          .inl ⟨r, rfl⟩, by simp [received, hkind, hlow]⟩)
  | raised e =>
    by_cases hc : e.isConnectFailure
    · exact .inr (.inl ⟨by simp [handled, hc], by simp, l, .connectionError,
        ⟨rfl, rfl, by simp [failureOf, hc]⟩, by simp [received, hc]⟩)
    · by_cases ht : e.isTimeoutException
      · exact .inr (.inl ⟨by simp [handled, ht], by simp, l, .timeout,
          ⟨rfl, rfl, by simp [failureOf, hc, ht]⟩, by simp [received, hc, ht]⟩)
      · exact .inr (.inr ⟨by simp [handled, hc, ht], .raised (.httpx e), .inr ⟨_, rfl⟩,
          by simp [received, hc, ht]⟩)
  | cancelled => exact .inr (.inr ⟨rfl, .raised .cancelled, .inr ⟨_, rfl⟩, rfl⟩)

theorem resume_cases {c : Control} {signal : Signal} {seg : Segment}
    (h : resume lib d m sh c signal = some seg) :
    (∃ l o, c = .forwarding l ∧ signal = .outcome o ∧ seg = received lib d m l o sh) ∨
    (∃ l, c = .sleeping l ∧ signal = .wake ∧ seg = attempt d m l sh) ∨
    (∃ l, (c = .sleeping l ∧ signal = .cancel) ∧ seg = ⟨sh, [], .raised .cancelled⟩) := by
  cases c with
  | forwarding l =>
    cases signal with
    | outcome o => exact .inl ⟨l, o, rfl, rfl, (Option.some.inj h).symm⟩
    | wake | cancel => simp [resume] at h
  | sleeping l =>
    cases signal with
    | outcome o => simp [resume] at h
    | wake => exact .inr (.inl ⟨l, rfl, rfl, (Option.some.inj h).symm⟩)
    | cancel => exact .inr (.inr ⟨l, ⟨rfl, rfl⟩, (Option.some.inj h).symm⟩)
  | returned | raised => simp [resume] at h

end

/-! A small gateway: one route to a service with one healthy instance. -/

def usersRoute : RouteDefinition :=
  { id := "users", tenantId := "acme", name := "users", pathPattern := "/users/*",
    httpMethods := ["GET"], backendServiceId := "users-svc" }

def getUsers : Call :=
  { requestId := "r1", route := usersRoute, method := "GET", headers := .empty, params := .empty,
    body := [], clientIp := "10.0.0.7", retryPolicy := {}, instanceId := "sentinel-1" }

def usersFleet : Fleet :=
  { get := fun _ => { id := "u1", host := "users", port := 8080, status := .healthy }
    byService := Dict.empty.set "users-svc" [0] }

def instant (t : ℚ) : Moment :=
  { clock := fun _ => t, mono := monotone_const, fleet := usersFleet
    shuffle := ⟨id, fun l => .refl l⟩, draw := ⟨0, le_rfl, one_pos⟩ }

def fresh : Shared := ⟨.empty, {}⟩

end Sentinel.Dispatch
