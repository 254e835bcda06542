import Sentinel.HealthyRouting
import Sentinel.StageGating

namespace Sentinel.HealthyGateway

open Runs Text Breaker Router Selection Streaks Dispatch Segments PathFidelity StageGating
open Health hiding resume resume_cases Control Signal
open Pipeline hiding next step start
open Gates hiding Event next step
open HealthyRouting (Bootstrapped usersPool usersChecker)
open Requests (World)

/-- A gateway with its health checker, and the results of the checks of every instance so far. -/
structure Plant where
  world : World
  checker : HealthChecker
  history : Ref → List Bool

inductive Action
  | request (a : Requests.Action)
  | check (r : Ref) (healthy : Bool)

/-- Nobody but the health checker writes a status. -/
def writes : Requests.Action → Bool
  | .write _ _ => true
  | _ => false

section

variable (lib : StringLibrary) (p : GatewayPipeline)

def next (w : Plant) : Action → Option Plant
  | .request a =>
    if writes a then none
    else (Requests.next lib p w.world a).map (fun world => { w with world })
  | .check r healthy =>
    if r ∈ pool w.world.fleet then
      let st := judge ⟨w.checker, w.world.fleet⟩ r healthy
      some
        { world := { w.world with fleet := st.fleet }
          checker := st.checker
          history := Function.update w.history r (w.history r ++ [healthy]) }
    else none

def step (w : Plant) (a : Action) (w' : Plant) : Prop := next lib p w a = some w'

end

def start (c : HealthChecker) (fleet : Fleet) (backing : Requests.Backing) : Plant :=
  ⟨Requests.start fleet backing,
    { c with consecutiveSuccesses := .empty, consecutiveFailures := .empty }, fun _ => []⟩

def routing (w : Plant) : HealthyRouting.World :=
  ⟨⟨w.checker, w.world.fleet⟩, w.world.backing.gateway.shared.selector, w.history⟩

section

variable {lib : StringLibrary} {p : GatewayPipeline} {c : HealthChecker} {fleet : Fleet}
  {w w' : Plant} {a : Action}

theorem step_cases (h : step lib p w a w') :
    (∃ a', a = .request a' ∧ (∀ r status, a' ≠ .write r status) ∧
      Requests.step lib p w.world a' w'.world ∧ w'.checker = w.checker ∧ w'.history = w.history) ∨
    (∃ r healthy, a = .check r healthy ∧
      HealthyRouting.step (routing w) (.check r healthy) (routing w')) := by
  cases a with
  | request a' =>
    simp only [step, next] at h
    split_ifs at h with hwrites
    obtain ⟨world, hworld, rfl⟩ := Option.map_eq_some_iff.mp h
    refine .inl ⟨a', rfl, ?_, hworld, rfl, rfl⟩
    rintro r status rfl
    exact hwrites rfl
  | check r healthy =>
    simp only [step, next] at h
    split_ifs at h with hr
    obtain rfl := Option.some.inj h
    exact .inr ⟨r, healthy, rfl, if_pos hr⟩

theorem fleet_eq {w w' : World} {a : Requests.Action} (ha : ∀ r status, a ≠ .write r status)
    (h : Requests.step lib p w a w') : w'.fleet = w.fleet := by
  obtain ⟨q, nowMs, rfl, rfl⟩ | ⟨i, overflow, h, route, rfl, -, rfl⟩ |
    ⟨i, m, signal, h, s, rfl, -, rfl⟩ | ⟨r, status, rfl, -⟩ | ⟨buckets, rfl, rfl⟩ :=
    Requests.step_cases h
  · rfl
  · rfl
  · rfl
  · exact absurd rfl (ha r status)
  · rfl

theorem inv_step (hs : 1 ≤ c.successThreshold) (hf : 1 ≤ c.failureThreshold)
    (hboot : Bootstrapped fleet) (hi : HealthyRouting.Inv c fleet (routing w))
    (hstep : step lib p w a w') : HealthyRouting.Inv c fleet (routing w') := by
  obtain ⟨a', -, ha, hworld, hchecker, hhistory⟩ | ⟨r, healthy, -, hrouting⟩ := step_cases hstep
  · have hconfigured : Configured fleet w.world := ⟨hi.config, hi.coherent⟩
    have hfleet := fleet_eq ha hworld
    obtain ⟨hsuccess, hfailure, hconfig, hcoherent, hjudged⟩ := hi
    refine ⟨?_, ?_, ?_, (configured_step hconfigured hworld).coherent, ?_⟩
    all_goals simp only [routing, hchecker, hhistory, hfleet]
    · exact hsuccess
    · exact hfailure
    · exact hconfig
    · exact hjudged
  · exact HealthyRouting.inv_step hs hf hboot hi hrouting

end

section

variable {lib : StringLibrary} {d : Call} {m : Moment} {sh : Shared}

theorem attempt_noHealthy {l : Locals} {result : PipelineResult}
    (h : (attempt d m l sh).control = .returned result)
    (hresult : result.stageFailed = some "backend_selection") : (chosen d m sh).2 = none := by
  obtain ⟨-, ha⟩ | ⟨e, -, ha⟩ | ⟨-, sel, clock, r, ⟨-, hr⟩, ha⟩ | ⟨-, sel, ref, -, ha⟩ :=
    attempt_cases d m l sh
  all_goals rw [ha] at h
  · cases h
    simp [exhausted] at hresult
  · cases h
    simp [circuitOpen] at hresult
  · obtain rfl := settle_returned h
    obtain ⟨-, -, hnone⟩ | ⟨-, rfl⟩ := hr
    · exact hnone
    · simp [exhausted] at hresult
  · cases h

theorem enter_noHealthy {result : PipelineResult} (h : (enter d m sh).control = .returned result)
    (hresult : result.stageFailed = some "backend_selection") : (chosen d m sh).2 = none := by
  have hnone := attempt_noHealthy h hresult
  exact hnone

theorem resume_noHealthy {c : Control} {signal : Signal} {seg : Segment} {result : PipelineResult}
    (hseg : resume lib d m sh c signal = some seg) (h : seg.control = .returned result)
    (hresult : result.stageFailed = some "backend_selection") : (chosen d m sh).2 = none := by
  obtain ⟨l, o, -, -, rfl⟩ | ⟨l, -, -, rfl⟩ | ⟨l, -, rfl⟩ := resume_cases lib d m sh hseg
  · exfalso
    obtain ⟨r, -, -, he⟩ | ⟨-, -, l', kind, -, he⟩ | ⟨-, c, ⟨r, rfl⟩ | ⟨e, rfl⟩, he⟩ :=
      received_cases lib d m l sh o
    · rw [he] at h
      cases h
      simp [passedOn] at hresult
    · rw [he] at h
      obtain ⟨e, he'⟩ | he' | ⟨backoffMs, -, -, -, -, he'⟩ := failed_cases lib d m l' sh o kind
      all_goals
        rw [he'] at h
        cases h
      simp [exhausted] at hresult
    · rw [he] at h
      cases h
      simp [passedOn] at hresult
    · rw [he] at h
      cases h
  · exact attempt_noHealthy h hresult
  · cases h

def Routed (route : RouteDefinition) : Stage → Prop
  | .acquiring route' _ | .dispatching route' _ _ => route' = route
  | _ => False

theorem inside_done {route : RouteDefinition} {r : Request} {concurrency : ConcurrencyManager}
    {seg : Segment} {result : PipelineResult}
    (h : (inside route r concurrency seg).stage = .done result) :
    seg.control = .returned result := by
  cases hc : seg.control with
  | returned result' =>
    rw [inside, hc] at h
    cases h
    rfl
  | raised | forwarding | sleeping =>
    rw [inside, hc] at h
    cases h

theorem proceed_forward {p : GatewayPipeline} {q : Inbound} {g : Gateway} {stage : Stage}
    {signal : Resumption} {st : Stretch} {clock : ℚ} {f : Forward}
    (hst : proceed lib p q m g stage signal = some st) (h : .forward clock f ∈ st.events) :
    ∃ route, Routed route stage ∧ ∃ ref,
      (chosen (callOf p q route) m g.shared).2 = some ref ∧ f.selected = m.fleet.get ref := by
  obtain ⟨route, reply, -, ⟨-, rfl⟩ | ⟨-, rfl⟩⟩ | ⟨route, -, rfl⟩ | ⟨route, r, w, ⟨rfl, -⟩, hw⟩ |
    ⟨route, r, c, signal', seg, rfl, hseg, rfl⟩ := proceed_cases hst
  · exact absurd h List.not_mem_nil
  · exact absurd h List.not_mem_nil
  · exact absurd h List.not_mem_nil
  · obtain ⟨concurrency, r', -, rfl | ⟨-, rfl⟩ | ⟨scope, -, rfl⟩ | rfl⟩ := throughGates_cases hw
    · exact absurd h List.not_mem_nil
    · rw [inside_events] at h
      exact ⟨route, rfl, ((enter_staged _ _ _).forward clock f h).2.2⟩
    · exact absurd h List.not_mem_nil
    · exact absurd h List.not_mem_nil
  · rw [inside_events] at h
    exact ⟨route, rfl, ((resume_staged _ _ _ lib hseg).forward clock f h).2.2⟩

theorem proceed_noHealthy {p : GatewayPipeline} {q : Inbound} {g : Gateway} {stage : Stage}
    {signal : Resumption} {st : Stretch} {result : PipelineResult}
    (hst : proceed lib p q m g stage signal = some st) (h : st.stage = .done result)
    (hresult : result.stageFailed = some "backend_selection") :
    ∃ route, Routed route stage ∧ (chosen (callOf p q route) m g.shared).2 = none := by
  obtain ⟨route, reply, -, ⟨-, rfl⟩ | ⟨-, rfl⟩⟩ | ⟨route, -, rfl⟩ | ⟨route, r, w, ⟨rfl, -⟩, hw⟩ |
    ⟨route, r, c, signal', seg, rfl, hseg, rfl⟩ := proceed_cases hst
  · cases h
    simp [rateLimited] at hresult
  · cases h
  · cases h
  · obtain ⟨concurrency, r', -, rfl | ⟨-, rfl⟩ | ⟨scope, -, rfl⟩ | rfl⟩ := throughGates_cases hw
    · cases h
    · have hcontrol := inside_done h
      exact ⟨route, rfl, enter_noHealthy hcontrol hresult⟩
    · cases h
      exact absurd hresult.symm (backpressure_ne (by decide) scope)
    · cases h
  · exact ⟨route, rfl, resume_noHealthy hseg (inside_done h) hresult⟩

end

/-- Health checks govern the gateway: whatever a request is resumed with in a run of requests and
health checks, it is sent only to an instance that its own checks have made fit, and it is answered
`NO_HEALTHY_BACKEND` only when they have made no instance of its service fit. -/
theorem forwards_follow_health {lib : StringLibrary} {p : GatewayPipeline} {c : HealthChecker}
    {fleet : Fleet} {buckets : Dict String TokenBucket.Bucket}
    {breakers : Dict String CircuitBreaker} {concurrency : ConcurrencyManager} {w : Plant}
    (hs : 1 ≤ c.successThreshold) (hf : 1 ≤ c.failureThreshold) (hboot : Bootstrapped fleet)
    (hrun : Reaches (step lib p) (start c fleet ⟨buckets, ⟨⟨breakers, {}⟩, concurrency⟩⟩) w)
    {q : Inbound} {m : Moment} {stage : Stage} {signal : Resumption} {st : Stretch}
    (hst : proceed lib p q { m with fleet := w.world.fleet } w.world.backing.gateway stage signal =
      some st) :
    (∀ clock f, .forward clock f ∈ st.events → ∃ route, Routed route stage ∧
      ∃ r ∈ instancesOf fleet route.backendServiceId, f.selected = w.world.fleet.get r ∧
        Fit true false c.successThreshold.toNat c.failureThreshold.toNat (w.history r)) ∧
    (∀ result, st.stage = .done result → result.stageFailed = some "backend_selection" →
      ∃ route, Routed route stage ∧ ∀ r ∈ instancesOf fleet route.backendServiceId,
        ¬Fit true false c.successThreshold.toNat c.failureThreshold.toNat (w.history r)) := by
  have hinv : HealthyRouting.Inv c fleet (routing w) :=
    hrun.invariant (I := fun w => HealthyRouting.Inv c fleet (routing w))
      (fun _ _ _ hi hstep => inv_step hs hf hboot hi hstep) (HealthyRouting.inv_start hs hboot)
  have hlist := hinv.config.instancesOf_eq
  have hfit : ∀ s, ∀ r ∈ instancesOf fleet s, ((w.world.fleet.get r).status = .healthy ↔
      Fit true false c.successThreshold.toNat c.failureThreshold.toNat (w.history r)) := by
    intro s r hr
    have hj := (hinv.judged r (mem_pool_of_mem_instancesOf hr)).healthy
    rwa [hinv.successThreshold, hinv.failureThreshold] at hj
  refine ⟨fun clock f hforward => ?_, fun result hdone hresult => ?_⟩
  · obtain ⟨route, hrouted, r, hchosen, hselected⟩ := proceed_forward hst hforward
    have hmem := select_mem hinv.coherent hchosen
    have hhealthy := select_healthy (hinv.config.distinguished hboot.distinguished)
      hinv.coherent hchosen
    have hr : r ∈ instancesOf fleet route.backendServiceId := hlist _ ▸ hmem
    exact ⟨route, hrouted, r, hr, hselected, (hfit _ r hr).mp hhealthy⟩
  · obtain ⟨route, hrouted, hnone⟩ := proceed_noHealthy hst hdone hresult
    refine ⟨route, hrouted, fun r hr => ?_⟩
    rw [← hfit _ r hr]
    rw [← hlist] at hr
    unfold chosen at hnone
    rw [select_eq_none_iff] at hnone
    exact hnone r hr

def sending (w : Plant) : Option Stretch :=
  w.world.requests[0]?.bind (fun h => proceed posix users h.inbound
    { instant 0 with fleet := w.world.fleet } w.world.backing.gateway h.stage (.gate .resume))

theorem forwards_follow_two_passes : ∃ (w : Plant) (f : Forward),
    Reaches (step posix users) (start usersChecker usersPool idleBacking) w ∧
    f.selected.port = 8081 ∧ ∃ r, f.selected = w.world.fleet.get r ∧
      Fit true false 2 3 (w.history r) := by
  have hboot : Bootstrapped usersPool := ⟨fun _ _ => rfl, by decide⟩
  obtain ⟨w, hw, hc⟩ := Reaches.of_check (next posix users)
    (fun w => (sending w).any (fun st => anyForward (fun f => f.selected.port = 8081) st.events))
    (start usersChecker usersPool idleBacking)
    ([.check 1 true, .check 0 false, .check 1 true] ++ (forwarded 0 99).dropLast.map .request)
    (by decide +kernel)
  obtain ⟨st, hst, hany⟩ := (Option.any_eq_true _ _).mp hc
  obtain ⟨clock, f, hforward, hport⟩ := exists_forward hany
  obtain ⟨h, -, hproceed⟩ := Option.bind_eq_some_iff.mp hst
  obtain ⟨-, -, r, -, hselected, hfit⟩ :=
    (forwards_follow_health (by decide) (by decide) hboot hw hproceed).1 clock f hforward
  exact ⟨w, f, hw, of_decide_eq_true hport, r, hselected, hfit⟩

end Sentinel.HealthyGateway
