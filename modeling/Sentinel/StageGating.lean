import Sentinel.GateMoves
import Sentinel.PathFidelity
import Sentinel.Requests
import Sentinel.Segments

namespace Sentinel.StageGating

open Runs Text Breaker Router Limiter Selection Dispatch Segments GateMoves PathFidelity
open Pipeline hiding next step start
open Gates hiding Event next step
open Requests

def Allowed (h : Handled) : Prop :=
  (∃ mv ∈ h.moves, ∃ reply, mv.cause = .signal (.reply reply) ∧
    (checkTokenBucket h.inbound.rateLimitPolicy reply).allowed = true) ∧
  (h.inbound.rateLimitPolicy.failureMode = .failClosed →
    ∃ mv ∈ h.moves, mv.cause = .script ∧ (h.evaluate mv.before.buckets).2.allowed = true)

/-- The step `mv` of a request issues the forward `f` after every stage has let it pass. -/
structure Gated (lib : StringLibrary) (p : GatewayPipeline) (fleet : Fleet) (h : Handled)
    (mv : Move) (route : RouteDefinition) (clock : ℚ) (f : Forward) : Prop where
  size : (h.inbound.body.length : ℤ) ≤ p.maxBodySizeBytes
  matched : p.routes.match lib h.inbound.tenantId h.inbound.method h.inbound.path = some route
  allowed : Allowed h
  gates : ∃ r l, mv.stage = .dispatching route r (.forwarding l) ∧
    r.ids = idsOf h.inbound route ∧ r.held = [.global, .tenant, .route, .backend]
  breaker : ∃ clock', (beforeRequest clock'
      (mv.before.gateway.shared.breakerFor route.backendServiceId)).2 = .ok () ∧
    mv.events = [.beforeRequest clock' true, .forward clock f]
  selected : ∃ ref ∈ instancesOf mv.fleet route.backendServiceId, f.selected = mv.fleet.get ref ∧
    (Distinguished fleet → f.selected.status = .healthy)

def Untouched {α : Type} (part : Backing → α) (h : Handled) : Prop :=
  ∀ mv ∈ h.moves, part mv.after = part mv.before

/-- A rejected request has left alone what the later stages work on. -/
structure Framed (h : Handled) (result : PipelineResult) : Prop where
  early : result.stageFailed ∈ [some "request_size_validation", some "route_matching"] →
    Untouched id h
  rateLimit : result.stageFailed = some "rate_limit" → Untouched Backing.gateway h
  backpressure : ∀ scope, result.stageFailed = some ("backpressure:" ++ scope) →
    Untouched (fun b => b.gateway.shared) h

def Accepted (lib : StringLibrary) (p : GatewayPipeline) (q : Inbound) (route : RouteDefinition) :
    Prop :=
  (q.body.length : ℤ) ≤ p.maxBodySizeBytes ∧
    p.routes.match lib q.tenantId q.method q.path = some route

/-- What a request has passed, and not yet touched, at each stage. -/
def StageInv (lib : StringLibrary) (p : GatewayPipeline) (h : Handled) : Stage → Prop
  | .limiting route => Accepted lib p h.inbound route ∧ Untouched Backing.gateway h
  | .acquiring route r => Accepted lib p h.inbound route ∧ Allowed h ∧
    (r.ids = idsOf h.inbound route ∧ r.held = scope r.phase) ∧
    Untouched (fun b => b.gateway.shared) h
  | .dispatching route r _ => Accepted lib p h.inbound route ∧ Allowed h ∧
    r.ids = idsOf h.inbound route ∧ r.held = scope .inside
  | .done result => Framed h result
  | .failed _ => True

structure Inv (lib : StringLibrary) (p : GatewayPipeline) (fleet : Fleet) (h : Handled) :
    Prop where
  stage : StageInv lib p h h.stage
  pending : ∀ reply, h.pending = some reply → ∃ mv ∈ h.moves, mv.cause = .script ∧
    ∃ overflow, reply = ScriptReply.of overflow (h.evaluate mv.before.buckets).2
  forwards : ∀ mv ∈ h.moves, ∀ clock f, .forward clock f ∈ mv.events →
    ∃ route, Gated lib p fleet h mv route clock f
  circuitOpen : ∀ mv ∈ h.moves, ∀ result, mv.stage = .done result →
    result.stageFailed = some "circuit_breaker" →
    mv.after.gateway.shared.selector = mv.before.gateway.shared.selector ∧
      ∀ clock f, .forward clock f ∉ mv.events

section

variable {lib : StringLibrary} {p : GatewayPipeline} {fleet : Fleet} {h : Handled} {mv mv' : Move}
  {route : RouteDefinition}

theorem mem_move (hmem : mv' ∈ h.moves) : mv' ∈ (h.move mv).moves :=
  List.mem_append_left _ hmem

theorem Allowed.move (ha : Allowed h) : Allowed (h.move mv) := by
  obtain ⟨⟨mv', hmem, hreply⟩, hclosed⟩ := ha
  refine ⟨⟨mv', mem_move hmem, hreply⟩, fun hmode => ?_⟩
  obtain ⟨mv'', hmem', hscript⟩ := hclosed hmode
  exact ⟨mv'', mem_move hmem', hscript⟩

theorem Gated.move {clock : ℚ} {f : Forward} (hg : Gated lib p fleet h mv' route clock f) :
    Gated lib p fleet (h.move mv) mv' route clock f :=
  { hg with allowed := hg.allowed.move }

theorem Untouched.move {α : Type} {part : Backing → α} (hu : Untouched part h)
    (hmv : part mv.after = part mv.before) : Untouched part (h.move mv) := by
  intro mv' hmem
  obtain hmem | hmem := List.mem_append.mp hmem
  · exact hu mv' hmem
  · rw [List.mem_singleton.mp hmem]
    exact hmv

theorem Untouched.of_gateway (hu : Untouched Backing.gateway h) :
    Untouched (fun b => b.gateway.shared) h :=
  fun mv hmem => congrArg Gateway.shared (hu mv hmem)

theorem Inv.move (hi : Inv lib p fleet h) (hstage : StageInv lib p (h.move mv) mv.stage)
    (hforward : ∀ clock f, .forward clock f ∈ mv.events →
      ∃ route, Gated lib p fleet (h.move mv) mv route clock f)
    (hopen : ∀ result, mv.stage = .done result → result.stageFailed = some "circuit_breaker" →
      mv.after.gateway.shared.selector = mv.before.gateway.shared.selector ∧
        ∀ clock f, .forward clock f ∉ mv.events) : Inv lib p fleet (h.move mv) := by
  refine ⟨hstage, fun reply hreply => ?_, fun mv' hmem clock f hf => ?_, fun mv' hmem => ?_⟩
  · obtain ⟨mv', hmem, hscript⟩ := hi.pending reply hreply
    exact ⟨mv', mem_move hmem, hscript⟩
  · obtain hmem | hmem := List.mem_append.mp hmem
    · obtain ⟨route, hg⟩ := hi.forwards mv' hmem clock f hf
      exact ⟨route, hg.move⟩
    · obtain rfl := List.mem_singleton.mp hmem
      exact hforward clock f hf
  · obtain hmem | hmem := List.mem_append.mp hmem
    · exact hi.circuitOpen mv' hmem
    · obtain rfl := List.mem_singleton.mp hmem
      exact hopen

theorem backpressure_ne {stage : String} (h : ¬"backpressure:".toList <+: stage.toList)
    (scope : String) : some stage ≠ some ("backpressure:" ++ scope) := by
  rintro he
  apply h
  rw [Option.some.inj he, String.toList_append]
  exact List.prefix_append _ _

theorem framed_of_dispatch {result : PipelineResult} (hr : result.stageFailed ∈ dispatchStages) :
    Framed h result := by
  have hstages : ∀ stage ∈ dispatchStages,
      stage ∉ [some "request_size_validation", some "route_matching"] ∧
        stage ≠ some "rate_limit" ∧ ∀ scope, stage ≠ some ("backpressure:" ++ scope) := by
    unfold dispatchStages
    simp only [List.forall_mem_cons]
    refine ⟨by simp, ?_, ?_, ?_, by simp⟩
    all_goals exact ⟨by simp, by simp, backpressure_ne (by decide)⟩
  obtain ⟨hearly, hrate, hback⟩ := hstages _ hr
  exact ⟨fun he => absurd he hearly, fun he => absurd he hrate,
    fun scope he => absurd he (hback scope)⟩

theorem allowed_of_reply (hi : Inv lib p fleet h) {reply : Option ScriptReply}
    (hhears : h.hears (.reply reply) = true)
    (ha : (checkTokenBucket h.inbound.rateLimitPolicy reply).allowed = true)
    (hcause : mv.cause = .signal (.reply reply)) : Allowed (h.move mv) := by
  refine ⟨⟨mv, List.mem_append_right _ List.mem_cons_self, reply, hcause, ha⟩, fun hmode => ?_⟩
  cases reply with
  | none =>
    have hclosed : h.inbound.rateLimitPolicy.failureMode = .failClosed := hmode
    simp [checkTokenBucket, degradedDecision, hclosed] at ha
  | some r =>
    obtain ⟨mv', hmem, hscript, overflow, rfl⟩ := hi.pending r (of_decide_eq_true hhears)
    refine ⟨mv', mem_move hmem, hscript, ?_⟩
    have hallowed : (h.evaluate mv'.before.buckets).2.allowed = true := by
      simpa [checkTokenBucket, ScriptReply.of] using ha
    exact hallowed

theorem Inv.move_silent (hi : Inv lib p fleet h) (hstage : StageInv lib p (h.move mv) mv.stage)
    (hevents : mv.events = []) (hopen : ∀ result, mv.stage = .done result →
      result.stageFailed ≠ some "circuit_breaker") : Inv lib p fleet (h.move mv) := by
  apply hi.move hstage
  · simp [hevents]
  · exact fun result hr he => absurd he (hopen result hr)

end

section

variable {lib : StringLibrary} {p : GatewayPipeline} {fleet : Fleet} {h : Handled} {w : World}
  {m : Moment} {route : RouteDefinition} {r : Request} {signal : Resumption}

/-- The instances are those of the configuration, and the cycles of the selector go through them. -/
structure Configured (fleet : Fleet) (w : World) : Prop where
  config : SameConfig fleet w.fleet
  coherent : Coherent w.fleet w.backing.gateway.shared.selector

theorem inside_inv (hi : Inv lib p fleet h) (hw : Configured fleet w)
    (haccepted : Accepted lib p h.inbound route) (hallowed : Allowed h)
    (hids : r.ids = idsOf h.inbound route) (hheld : r.held = scope .inside)
    (concurrency : ConcurrencyManager) {seg : Segment}
    (hseg : Staged (callOf p h.inbound route) { m with fleet := w.fleet } w.backing.gateway.shared
      seg) : Inv lib p fleet (h.move (resumed w signal (inside route r concurrency seg))) := by
  obtain ⟨result, concurrency', hc, he⟩ | ⟨e, concurrency', hc, he⟩ | he :=
    inside_cases route r concurrency seg
  · have hno : ∀ clock f, .forward clock f ∉ seg.events := by
      intro clock f hf
      obtain ⟨⟨l, hl⟩, -⟩ := hseg.forward clock f hf
      rw [hc] at hl
      cases hl
    rw [he]
    refine hi.move (framed_of_dispatch (hseg.result result hc))
      (fun clock f hf => absurd hf (hno clock f)) (fun result' hr hopen => ?_)
    cases hr
    exact hseg.circuitOpen result hc hopen
  · rw [he]
    refine hi.move trivial (fun clock f hf => ?_) (fun result hr => by cases hr)
    obtain ⟨⟨l, hl⟩, -⟩ := hseg.forward clock f hf
    rw [hc] at hl
    cases hl
  · rw [he]
    refine hi.move ⟨haccepted, hallowed.move, hids, hheld⟩ (fun clock f hf => ?_)
      (fun result hr => by cases hr)
    obtain ⟨⟨l, hl⟩, hbreaker, ref, hchosen, hselected⟩ := hseg.forward clock f hf
    refine ⟨route, haccepted.1, haccepted.2, hallowed.move, ⟨r, l, ?_, hids, hheld⟩, hbreaker,
      ref, select_mem hw.coherent hchosen, hselected, fun hdist => ?_⟩
    · rw [← hl]
      rfl
    · rw [hselected]
      exact select_healthy (hw.config.distinguished hdist) hw.coherent hchosen

theorem framed_rateLimited (q : Inbound) (decision : RateLimitDecision)
    (hu : Untouched Backing.gateway h) : Framed h (rateLimited q decision) := by
  refine ⟨fun he => ?_, fun _ => hu, fun scope he => ?_⟩
  · simp [rateLimited] at he
  · exact absurd he (backpressure_ne (by decide) scope)

theorem framed_overloaded (q : Inbound) (scope : String)
    (hu : Untouched (fun b => b.gateway.shared) h) : Framed h (overloaded q scope) := by
  have hne : ∀ stage : String, ¬"backpressure:".toList <+: stage.toList →
      (overloaded q scope).stageFailed ≠ some stage :=
    fun stage hs he => backpressure_ne hs scope he.symm
  refine ⟨fun he => ?_, fun he => absurd he (hne _ (by decide)), fun _ _ => hu⟩
  obtain he | he : _ = _ ∨ _ = _ := by simpa using he
  · exact absurd he (hne _ (by decide))
  · exact absurd he (hne _ (by decide))

theorem throughGates_inv (hi : Inv lib p fleet h) (hw : Configured fleet w)
    (hstage : h.stage = .acquiring route r) {wake : Wake} {s : Stretch}
    (hs : throughGates p h.inbound { m with fleet := w.fleet } w.backing.gateway route r wake =
      some s) : Inv lib p fleet (h.move (resumed w signal s)) := by
  obtain ⟨haccepted, hallowed, ⟨hids, hheld⟩, hu⟩ : StageInv lib p h (.acquiring route r) :=
    hstage ▸ hi.stage
  obtain ⟨concurrency, r', hprogress, hcases⟩ := throughGates_cases hs
  obtain ⟨-, hids', hheld', -⟩ := progress_moves hprogress hheld
  obtain rfl | ⟨hphase, rfl⟩ | ⟨scope, -, rfl⟩ | rfl := hcases
  · exact hi.move_silent ⟨haccepted, hallowed.move, ⟨hids'.trans hids, hheld'⟩, hu.move rfl⟩ rfl
      (by simp [resumed])
  · rw [hphase] at hheld'
    exact inside_inv hi hw haccepted hallowed (hids'.trans hids) hheld' concurrency
      (enter_staged _ _ _)
  · refine hi.move_silent (framed_overloaded h.inbound scope (hu.move rfl)) rfl ?_
    rintro result hr hopen
    cases hr
    exact absurd hopen.symm (backpressure_ne (by decide) scope)
  · exact hi.move_silent trivial rfl (by simp [resumed])

theorem resume_inv (hi : Inv lib p fleet h) (hw : Configured fleet w)
    (hhears : h.hears signal = true) {s : Stretch}
    (hs : proceed lib p h.inbound { m with fleet := w.fleet } w.backing.gateway h.stage signal =
      some s) : Inv lib p fleet (h.move (resumed w signal s)) := by
  obtain ⟨route, reply, ⟨hstage, rfl⟩, ⟨-, rfl⟩ | ⟨ha, rfl⟩⟩ | ⟨route, hstage, rfl⟩ |
    ⟨route, r, wake, ⟨hstage, -⟩, hgates⟩ | ⟨route, r, c, signal', seg, hstage, hseg, rfl⟩ :=
    proceed_cases hs
  · obtain ⟨-, hu⟩ : StageInv lib p h (.limiting route) := hstage ▸ hi.stage
    refine hi.move_silent (framed_rateLimited h.inbound _ (hu.move rfl)) rfl ?_
    rintro result hr hopen
    cases hr
    simp [rateLimited] at hopen
  · obtain ⟨haccepted, hu⟩ : StageInv lib p h (.limiting route) := hstage ▸ hi.stage
    exact hi.move_silent ⟨haccepted, allowed_of_reply hi hhears ha rfl, ⟨rfl, rfl⟩,
      hu.of_gateway.move rfl⟩ rfl (by simp [resumed])
  · exact hi.move_silent trivial rfl (by simp [resumed])
  · exact throughGates_inv hi hw hstage hgates
  · obtain ⟨haccepted, hallowed, hids, hheld⟩ : StageInv lib p h (.dispatching route r c) :=
      hstage ▸ hi.stage
    exact inside_inv hi hw haccepted hallowed hids hheld w.backing.gateway.concurrency
      (resume_staged _ _ _ lib hseg)

theorem arrive_inv (lib : StringLibrary) (p : GatewayPipeline) (fleet : Fleet) (w : World)
    (q : Inbound) (nowMs : ℤ) :
    Inv lib p fleet ⟨q, nowMs, handle lib p q, none, [arrival lib p w q]⟩ := by
  have hu : ∀ {α : Type} (part : Backing → α),
      Untouched part ⟨q, nowMs, handle lib p q, none, [arrival lib p w q]⟩ := by
    intro α part mv hmem
    rw [List.mem_singleton.mp hmem]
    rfl
  have hstage : StageInv lib p ⟨q, nowMs, handle lib p q, none, [arrival lib p w q]⟩
      (handle lib p q) := by
    obtain ⟨-, he⟩ | ⟨hsize, ⟨-, he⟩ | ⟨route, hmatch, he⟩⟩ := handle_cases lib p q
    · rw [he]
      exact ⟨fun _ => he ▸ hu id, fun _ => he ▸ hu _, fun _ _ => he ▸ hu _⟩
    · rw [he]
      exact ⟨fun _ => he ▸ hu id, fun _ => he ▸ hu _, fun _ _ => he ▸ hu _⟩
    · rw [he]
      exact ⟨⟨hsize, hmatch⟩, he ▸ hu _⟩
  refine ⟨hstage, by simp, ?_, ?_⟩
  all_goals
    intro mv hmem
    rw [List.mem_singleton.mp hmem]
  · simp [arrival]
  · exact fun _ _ _ => ⟨rfl, by simp [arrival]⟩

theorem script_inv (hi : Inv lib p fleet h) (hstage : h.stage = .limiting route) (overflow : ℤ) :
    Inv lib p fleet (Handled.move { h with
      pending := some (ScriptReply.of overflow (h.evaluate w.backing.buckets).2) }
      (scripted w h)) := by
  obtain ⟨haccepted, hu⟩ : StageInv lib p h (.limiting route) := hstage ▸ hi.stage
  have hmove : Inv lib p fleet (h.move (scripted w h)) := by
    refine hi.move_silent ?_ rfl (by simp [scripted, hstage])
    rw [show (scripted w h).stage = .limiting route from hstage]
    exact ⟨haccepted, hu.move rfl⟩
  refine ⟨?_, fun reply hreply => ?_, fun mv hmem clock f hf => ?_, hmove.circuitOpen⟩
  · rw [show (Handled.move _ (scripted w h)).stage = .limiting route from hstage]
    exact ⟨haccepted, hu.move rfl⟩
  · obtain rfl := Option.some.inj hreply
    exact ⟨scripted w h, List.mem_append_right _ List.mem_cons_self, rfl, overflow, rfl⟩
  · obtain ⟨route', hg⟩ := hmove.forwards mv hmem clock f hf
    exact ⟨route', { hg with }⟩

theorem proceed_coherent {g : Gateway} {q : Inbound} {stage : Stage} {s : Stretch}
    (hc : Coherent m.fleet g.shared.selector) (hs : proceed lib p q m g stage signal = some s) :
    Coherent m.fleet s.gateway.shared.selector := by
  have hinside : ∀ d route r concurrency seg, Staged d m g.shared seg →
      Coherent m.fleet (inside route r concurrency seg).gateway.shared.selector := by
    intro d route r concurrency seg hseg
    rw [inside_shared]
    obtain he | he := hseg.selector
    · rw [he]
      exact hc
    · rw [he]
      exact select_coherent hc
  obtain ⟨route, reply, -, ⟨-, rfl⟩ | ⟨-, rfl⟩⟩ | ⟨route, -, rfl⟩ | ⟨route, r, wake, -, hgates⟩ |
    ⟨route, r, c, signal', seg, -, hseg, rfl⟩ := proceed_cases hs
  · exact hc
  · exact hc
  · exact hc
  · obtain ⟨concurrency, r', -, rfl | ⟨-, rfl⟩ | ⟨scope, -, rfl⟩ | rfl⟩ := throughGates_cases hgates
    · exact hc
    · exact hinside _ route r' concurrency _ (enter_staged _ _ _)
    · exact hc
    · exact hc
  · exact hinside _ route r g.concurrency seg (resume_staged _ _ _ lib hseg)

theorem configured_step {w' : World} {a : Action} (hw : Configured fleet w)
    (hstep : step lib p w a w') : Configured fleet w' := by
  obtain ⟨q, nowMs, rfl, rfl⟩ | ⟨i, overflow, h, route, rfl, -, rfl⟩ |
    ⟨i, m, signal, h, s, rfl, ⟨-, -, hs⟩, rfl⟩ | ⟨r, status, rfl, rfl⟩ | ⟨buckets, rfl, rfl⟩ :=
    step_cases hstep
  · exact ⟨hw.config, hw.coherent⟩
  · exact ⟨hw.config, hw.coherent⟩
  · exact ⟨hw.config, proceed_coherent hw.coherent hs⟩
  · have hconfig := writeStatus_sameConfig w.fleet r status
    exact ⟨hw.config.trans hconfig, hconfig.coherent hw.coherent⟩
  · exact ⟨hw.config, hw.coherent⟩

theorem inv_step {w' : World} {a : Action} (hw : Configured fleet w)
    (hi : ∀ h ∈ w.requests, Inv lib p fleet h) (hstep : step lib p w a w') :
    ∀ h ∈ w'.requests, Inv lib p fleet h := by
  obtain ⟨q, nowMs, rfl, rfl⟩ | ⟨i, overflow, h, route, rfl, ⟨hget, hstage, -⟩, rfl⟩ |
    ⟨i, m, signal, h, s, rfl, ⟨hget, hhears, hs⟩, rfl⟩ | ⟨r, status, rfl, rfl⟩ |
    ⟨buckets, rfl, rfl⟩ := step_cases hstep
  · intro h hmem
    obtain hmem | hmem := List.mem_append.mp hmem
    · exact hi h hmem
    · rw [List.mem_singleton.mp hmem]
      exact arrive_inv lib p fleet w q nowMs
  · exact forall_mem_move hi
      (script_inv (hi h (List.mem_of_getElem? hget)) hstage overflow)
  · exact forall_mem_move hi (resume_inv (hi h (List.mem_of_getElem? hget)) hw hhears hs)
  · exact hi
  · exact hi

end

/-- In every interleaving of requests, every forward has passed every stage, and a rejected request
has left every later stage as it was. The selected instance is `HEALTHY` if no two instances of a
service share both id and weight. -/
theorem stages_gate_and_frame (lib : StringLibrary) (routes : List RouteDefinition)
    (maxBodySizeBytes : ℤ) (instanceId : String) (fleet : Fleet)
    (buckets : Dict String TokenBucket.Bucket) (breakers : Dict String CircuitBreaker)
    (concurrency : ConcurrencyManager) (w : World)
    (hrun : Reaches (step lib ⟨.new routes, maxBodySizeBytes, instanceId⟩)
      (start fleet ⟨buckets, ⟨⟨breakers, {}⟩, concurrency⟩⟩) w) :
    ∀ h ∈ w.requests,
      (∀ mv ∈ h.moves, ∀ clock f, .forward clock f ∈ mv.events → ∃ route ∈ routes,
        (route.enabled = true ∧ route.tenantId = h.inbound.tenantId) ∧
        Gated lib ⟨.new routes, maxBodySizeBytes, instanceId⟩ fleet h mv route clock f) ∧
      (h.stage = .done (payloadTooLarge h.inbound) ∨ h.stage = .done (routeNotFound h.inbound) →
        Untouched id h) ∧
      (∀ decision, h.stage = .done (rateLimited h.inbound decision) →
        Untouched Backing.gateway h) ∧
      (∀ scope, h.stage = .done (overloaded h.inbound scope) →
        Untouched (fun b => b.gateway.shared) h) ∧
      (∀ mv ∈ h.moves, ∀ d, mv.stage = .done (circuitOpen d) →
        mv.after.gateway.shared.selector = mv.before.gateway.shared.selector ∧
          ∀ clock f, .forward clock f ∉ mv.events) := by
  have hall := hrun.invariant (I := fun w => Configured fleet w ∧ ∀ h ∈ w.requests,
      Inv lib ⟨.new routes, maxBodySizeBytes, instanceId⟩ fleet h)
    (fun w a w' hi hstep => ⟨configured_step hi.1 hstep, inv_step hi.1 hi.2 hstep⟩)
    ⟨⟨.refl fleet, coherent_empty fleet⟩, by simp [start]⟩
  intro h hmem
  have hi := hall.2 h hmem
  have hframed : ∀ result, h.stage = .done result → Framed h result := by
    intro result hstage
    have hinv := hi.stage
    rwa [hstage] at hinv
  refine ⟨fun mv hmv clock f hf => ?_, ?_, fun decision hstage => ?_, fun scope hstage => ?_,
    fun mv hmv d hstage => hi.circuitOpen mv hmv _ hstage rfl⟩
  · obtain ⟨route, hg⟩ := hi.forwards mv hmv clock f hf
    obtain ⟨hroute, henabled, htenant⟩ := RouteMatcher.match_new hg.matched
    exact ⟨route, hroute, ⟨henabled, htenant⟩, hg⟩
  · rintro (hstage | hstage)
    · exact (hframed _ hstage).early (by simp [payloadTooLarge])
    · exact (hframed _ hstage).early (by simp [routeNotFound])
  · exact (hframed _ hstage).rateLimit rfl
  · exact (hframed _ hstage).backpressure scope rfl

def forwarded (i : ℕ) (remaining : ℤ) : List Requests.Action :=
  let signals : List Resumption :=
    .reply (some ⟨1, remaining, 0⟩) :: (List.replicate 4 [.gate .grant, .gate .resume]).flatten
  [.arrive (getPath "/users/42") 0, .script i 0] ++ signals.map (.resume i (instant 0))

def anyMove (P : Forward → Bool) (w : World) : Bool :=
  w.requests.any (fun h => h.moves.any (fun mv => anyForward P mv.events))

theorem exists_move {P : Forward → Bool} {w : World} (h : anyMove P w = true) :
    ∃ h ∈ w.requests, ∃ mv ∈ h.moves, ∃ clock f, .forward clock f ∈ mv.events ∧ P f = true := by
  obtain ⟨h, hmem, hmoves⟩ := List.any_eq_true.mp h
  obtain ⟨mv, hmv, hforward⟩ := List.any_eq_true.mp hmoves
  exact ⟨h, hmem, mv, hmv, exists_forward hforward⟩

def idleBacking : Backing := ⟨.empty, ⟨fresh, .new {}⟩⟩

theorem stages_gate_users : ∃ w, Reaches (step posix users) (start usersFleet idleBacking) w ∧
    ∃ h ∈ w.requests, ∃ mv ∈ h.moves, ∃ clock f, .forward clock f ∈ mv.events ∧
      Allowed h ∧ f.selected.status = .healthy := by
  have hdist : Distinguished usersFleet := distinguished_of_singleton rfl
  obtain ⟨w, hw, hc⟩ := Reaches.of_check (Requests.next posix users) (anyMove (fun _ => true))
    (start usersFleet idleBacking) (forwarded 0 99) (by decide +kernel)
  obtain ⟨h, hmem, mv, hmv, clock, f, hf, -⟩ := exists_move hc
  obtain ⟨hgated, -⟩ := stages_gate_and_frame posix [usersRoute] 1048576 "sentinel-1" usersFleet
    .empty .empty (.new {}) w hw h hmem
  obtain ⟨route, -, -, hg⟩ := hgated mv hmv clock f hf
  obtain ⟨ref, -, -, hhealthy⟩ := hg.selected
  exact ⟨w, hw, h, hmem, mv, hmv, clock, f, hf, hg.allowed, hhealthy hdist⟩

def twins : Fleet :=
  { get := fun r =>
      { id := "u1", host := if r = 0 then "users-a" else "users-b", port := 8080
        status := if r = 0 then .healthy else .unknown }
    byService := Dict.empty.set "users-svc" [0, 1] }

/-- The first request makes a cycle through the first twin. Then that twin becomes unhealthy and
the other one healthy: the signature is the same, and the second request goes to the first twin. -/
theorem forward_to_unhealthy_twin : ∃ w,
    Reaches (step posix users) (start twins idleBacking) w ∧
    ∃ h ∈ w.requests, ∃ mv ∈ h.moves, ∃ clock f, .forward clock f ∈ mv.events ∧
      f.selected.status = .unhealthy := by
  obtain ⟨w, hw, hc⟩ := Reaches.of_check (Requests.next posix users)
    (anyMove (fun f => f.selected.status = .unhealthy)) (start twins idleBacking)
    (forwarded 0 99 ++ [.write 0 .unhealthy, .write 1 .healthy] ++ forwarded 1 98)
    (by decide +kernel)
  obtain ⟨h, hmem, mv, hmv, clock, f, hf, hstatus⟩ := exists_move hc
  exact ⟨w, hw, h, hmem, mv, hmv, clock, f, hf, of_decide_eq_true hstatus⟩

end Sentinel.StageGating
