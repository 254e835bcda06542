import Sentinel.Pipeline
import Sentinel.Selection

namespace Sentinel.Requests

open Text Router Limiter Selection Dispatch Pipeline

/-- What the requests of a gateway share: the buckets in Redis and the state of the pipeline. -/
structure Backing where
  buckets : Dict String TokenBucket.Bucket
  gateway : Gateway

/-- Why a request takes a step: it comes in, Redis runs its script, or it is resumed. -/
inductive Cause
  | arrival
  | script
  | signal (s : Resumption)

/-- One step of a request, with the instances as they were at the time. -/
structure Move where
  cause : Cause
  fleet : Fleet
  before : Backing
  after : Backing
  events : List Event
  stage : Stage

/-- `nowMs` is the clock reading for the script; `pending` is the script's reply on its way back. -/
structure Handled where
  inbound : Inbound
  nowMs : ℤ
  stage : Stage
  pending : Option ScriptReply
  moves : List Move

structure World where
  fleet : Fleet
  backing : Backing
  requests : List Handled

/-- `write` is a status written by the health checker or another task, `redis` what other gateways
and expiry do to the buckets. -/
inductive Action
  | arrive (q : Inbound) (nowMs : ℤ)
  | script (i : ℕ) (overflow : ℤ)
  | resume (i : ℕ) (m : Moment) (signal : Resumption)
  | write (r : Ref) (status : InstanceStatus)
  | redis (buckets : Dict String TokenBucket.Bucket)

def Handled.evaluate (h : Handled) (buckets : Dict String TokenBucket.Bucket) :
    TokenBucket.Bucket × TokenBucket.Reply :=
  TokenBucket.evaluate (h.inbound.rateLimitPolicy.args h.nowMs)
    (buckets.get? h.inbound.rateLimitKey)

/-- The reply that a request gets is the one that its script gave; an error can come instead. -/
def Handled.hears (h : Handled) : Resumption → Bool
  | .reply (some r) => h.pending = some r
  | _ => true

def Handled.move (h : Handled) (mv : Move) : Handled :=
  { h with stage := mv.stage, moves := h.moves ++ [mv] }

def World.move (w : World) (i : ℕ) (h : Handled) (mv : Move) : World :=
  { w with backing := mv.after, requests := w.requests.set i (h.move mv) }

section

variable (lib : StringLibrary) (p : GatewayPipeline)

def arrival (w : World) (q : Inbound) : Move :=
  ⟨.arrival, w.fleet, w.backing, w.backing, [], handle lib p q⟩

/-- Redis runs the script of a request that awaits it. -/
def scripted (w : World) (h : Handled) : Move :=
  ⟨.script, w.fleet, w.backing,
    { w.backing with
      buckets := w.backing.buckets.set h.inbound.rateLimitKey (h.evaluate w.backing.buckets).1 },
    [], h.stage⟩

def resumed (w : World) (signal : Resumption) (s : Stretch) : Move :=
  ⟨.signal signal, w.fleet, w.backing, { w.backing with gateway := s.gateway }, s.events, s.stage⟩

def next (w : World) : Action → Option World
  | .arrive q nowMs =>
    some { w with requests := w.requests ++
      [⟨q, nowMs, handle lib p q, none, [arrival lib p w q]⟩] }
  | .script i overflow =>
    match w.requests[i]? with
    | some h =>
      match h.stage, h.pending with
      | .limiting _, none =>
        let reply := ScriptReply.of overflow (h.evaluate w.backing.buckets).2
        some (w.move i { h with pending := some reply } (scripted w h))
      | _, _ => none
    | none => none
  | .resume i m signal =>
    match w.requests[i]? with
    | some h =>
      if h.hears signal then
        (proceed lib p h.inbound { m with fleet := w.fleet } w.backing.gateway h.stage signal).map
          (fun s => w.move i h (resumed w signal s))
      else none
    | none => none
  | .write r status => some { w with fleet := writeStatus w.fleet r status }
  | .redis buckets => some { w with backing := { w.backing with buckets } }

def step (w : World) (a : Action) (w' : World) : Prop := next lib p w a = some w'

def start (fleet : Fleet) (backing : Backing) : World := ⟨fleet, backing, []⟩

end

section

variable {lib : StringLibrary} {p : GatewayPipeline} {w w' : World} {a : Action}

theorem step_cases (h : step lib p w a w') :
    (∃ q nowMs, a = .arrive q nowMs ∧ w' = { w with requests := w.requests ++
      [⟨q, nowMs, handle lib p q, none, [arrival lib p w q]⟩] }) ∨
    (∃ i overflow h route, a = .script i overflow ∧
      (w.requests[i]? = some h ∧ h.stage = .limiting route ∧ h.pending = none) ∧
      w' = w.move i { h with
        pending := some (ScriptReply.of overflow (h.evaluate w.backing.buckets).2) }
        (scripted w h)) ∨
    (∃ i m signal h s, a = .resume i m signal ∧
      (w.requests[i]? = some h ∧ h.hears signal = true ∧
        proceed lib p h.inbound { m with fleet := w.fleet } w.backing.gateway h.stage signal =
          some s) ∧
      w' = w.move i h (resumed w signal s)) ∨
    (∃ r status, a = .write r status ∧ w' = { w with fleet := writeStatus w.fleet r status }) ∨
    (∃ buckets, a = .redis buckets ∧
      w' = { w with backing := { w.backing with buckets } }) := by
  cases a with
  | arrive q nowMs => exact .inl ⟨q, nowMs, rfl, (Option.some.inj h).symm⟩
  | script i overflow =>
    refine .inr (.inl ?_)
    cases hr : w.requests[i]? with
    | none => simp [step, next, hr] at h
    | some r =>
      cases hstage : r.stage with
      | limiting route =>
        cases hpending : r.pending with
        | none =>
          simp only [step, next, hr, hstage, hpending, Option.some.injEq] at h
          exact ⟨i, overflow, r, route, rfl, ⟨hr, hstage, hpending⟩, by rw [← h]; rfl⟩
        | some reply => simp [step, next, hr, hstage, hpending] at h
      | acquiring | dispatching | done | failed => simp [step, next, hr, hstage] at h
  | resume i m signal =>
    refine .inr (.inr (.inl ?_))
    cases hr : w.requests[i]? with
    | none => simp [step, next, hr] at h
    | some r =>
      simp only [step, next, hr] at h
      split_ifs at h with hhears
      obtain ⟨s, hs, rfl⟩ := Option.map_eq_some_iff.mp h
      exact ⟨i, m, signal, r, s, rfl, ⟨hr, hhears, hs⟩, rfl⟩
  | write r status => exact .inr (.inr (.inr (.inl ⟨r, status, rfl, (Option.some.inj h).symm⟩)))
  | redis buckets => exact .inr (.inr (.inr (.inr ⟨buckets, rfl, (Option.some.inj h).symm⟩)))

theorem forall_mem_move {P : Handled → Prop} {i : ℕ} {h : Handled} {mv : Move}
    (hall : ∀ h ∈ w.requests, P h) (hmv : P (h.move mv)) :
    ∀ h' ∈ (w.move i h mv).requests, P h' := by
  intro h' hmem
  obtain hmem | rfl := List.mem_or_eq_of_mem_set hmem
  · exact hall h' hmem
  · exact hmv

end

end Sentinel.Requests
