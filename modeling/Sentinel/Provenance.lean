import Sentinel.StageGating

namespace Sentinel.Provenance

open Runs Text Breaker Router Retry Limiter Dispatch
open Pipeline hiding next step start
open Gates hiding Event next step
open Requests Selection

/-- The answer that a dispatch would give up with: the latest 5xx response, or a bare 502. -/
def noted (acc : ℕ × Bytes) : Event → ℕ × Bytes
  | .received (.response r) =>
    if 500 ≤ r.statusCode ∧ r.statusCode < 600 then (r.statusCode, r.content) else acc
  | _ => acc

def lastError (es : List Event) : ℕ × Bytes :=
  es.foldl noted (502, bytes "\x7b\"error\":\x7b\"code\":\"BAD_GATEWAY\"\x7d\x7d")

def outcome? (acc : Option Outcome) : Event → Option Outcome
  | .received o => some o
  | _ => acc

def lastOutcome (es : List Event) : Option Outcome := es.foldl outcome? none

/-- What a dispatch returns after the events `es`, with the instances as they are. -/
inductive Told (d : Call) (fleet : Fleet) (es : List Event) : PipelineResult → Prop
  | circuitOpen (clock : ℚ) (hrefused : es.getLast? = some (.beforeRequest clock false)) :
      Told d fleet es (circuitOpen d)
  | noHealthyBackend (clock : ℚ) (before after : List Event)
      (hadmitted : es = before ++ .beforeRequest clock true :: after)
      (hfailed : ∀ e ∈ after, e = .recordFailure ∨ ∃ clock, e = .opened clock)
      (hnone : ∀ r ∈ instancesOf fleet d.serviceId, (fleet.get r).status ≠ .healthy) :
      Told d fleet es (noHealthyBackend d)
  | exhausted (l : Locals) (hlast : (l.lastStatus, l.lastErrorBody) = lastError es) :
      Told d fleet es (exhausted d l)
  | passedOn (r : Response) (hlast : lastOutcome es = some (.response r))
      (hstatus : r.statusCode < 500 ∨ 600 ≤ r.statusCode) : Told d fleet es (passedOn d r)

def Tells (d : Call) (fleet : Fleet) (es : List Event) : Control → Prop
  | .forwarding l | .sleeping l => (l.lastStatus, l.lastErrorBody) = lastError es
  | .returned result => Told d fleet es result
  | .raised _ => True

def quiet : Event → Bool
  | .received _ => false
  | _ => true

theorem foldl_append_quiet {β : Type} {f : β → Event → β}
    (hf : ∀ acc e, quiet e = true → f acc e = acc) (b : β) {es es' : List Event}
    (h : ∀ e ∈ es', quiet e = true) : (es ++ es').foldl f b = es.foldl f b := by
  induction es' using List.reverseRecOn with
  | nil => rw [List.append_nil]
  | append_singleton es' e ih =>
    rw [← List.append_assoc, List.foldl_concat, ih (fun e' he' => h e' (by simp [he'])),
      hf _ e (h e (by simp))]

theorem foldl_received {β : Type} {f : β → Event → β}
    (hf : ∀ acc e, quiet e = true → f acc e = acc) (b : β) (es : List Event) (o : Outcome)
    {rest : List Event} (h : ∀ e ∈ rest, quiet e = true) :
    (es ++ .received o :: rest).foldl f b = f (es.foldl f b) (.received o) := by
  rw [← List.singleton_append, ← List.append_assoc, foldl_append_quiet hf b h, List.foldl_concat]

theorem noted_quiet (acc : ℕ × Bytes) (e : Event) (h : quiet e = true) : noted acc e = acc := by
  cases e with
  | received o => simp [quiet] at h
  | beforeRequest | forward | recordSuccess | recordFailure | opened | sleep => rfl

theorem outcome?_quiet (acc : Option Outcome) (e : Event) (h : quiet e = true) :
    outcome? acc e = acc := by
  cases e with
  | received o => simp [quiet] at h
  | beforeRequest | forward | recordSuccess | recordFailure | opened | sleep => rfl

theorem lastError_append_quiet {es es' : List Event} (h : ∀ e ∈ es', quiet e = true) :
    lastError (es ++ es') = lastError es :=
  foldl_append_quiet noted_quiet _ h

theorem lastError_received (es : List Event) (o : Outcome) {rest : List Event}
    (h : ∀ e ∈ rest, quiet e = true) :
    lastError (es ++ .received o :: rest) = noted (lastError es) (.received o) :=
  foldl_received noted_quiet _ es o h

theorem lastOutcome_received (es : List Event) (o : Outcome) {rest : List Event}
    (h : ∀ e ∈ rest, quiet e = true) : lastOutcome (es ++ .received o :: rest) = some o :=
  foldl_received outcome?_quiet _ es o h

theorem recordFailure_quiet (sh : Shared) (serviceId : String) (clock : ℚ) :
    ∀ e ∈ (sh.recordFailure serviceId clock).2.1, quiet e = true := by
  obtain ⟨rest, he, hrest⟩ := sh.recordFailure_events serviceId clock
  intro e hmem
  rw [he] at hmem
  obtain rfl | hmem := List.mem_cons.mp hmem
  · rfl
  · rw [hrest e hmem]
    rfl

section

variable (lib : StringLibrary) (d : Call) (m : Moment) (sh : Shared) {l : Locals} {es : List Event}

theorem Tells.settle {fleet : Fleet} {c : Control} (h : Tells d fleet es c)
    (result : Except BreakerError Unit) : Tells d fleet es (settle result c) := by
  cases result with
  | ok => exact h
  | error => trivial

theorem attempt_tells (h : (l.lastStatus, l.lastErrorBody) = lastError es) :
    Tells d m.fleet (es ++ (attempt d m l sh).events) (attempt d m l sh).control := by
  obtain ⟨-, ha⟩ | ⟨e, -, ha⟩ | ⟨-, sel, clock, r, ⟨-, hr⟩, ha⟩ | ⟨-, sel, ref, -, ha⟩ :=
    attempt_cases d m l sh
  · rw [ha, List.append_nil]
    exact .exhausted l h
  · rw [ha]
    exact .circuitOpen (m.clock 1) (by simp)
  · rw [ha]
    apply Tells.settle
    obtain ⟨rest, he, hrest⟩ := (admitted d m sh sel).recordFailure_events d.serviceId clock
    obtain ⟨-, rfl, hnone⟩ | ⟨-, rfl⟩ := hr
    · refine .noHealthyBackend (m.clock 1) es _ rfl (fun e hmem => ?_)
        ((select_eq_none_iff _ _ _ _ _).mp hnone)
      rw [he] at hmem
      exact (List.mem_cons.mp hmem).imp_right (fun hmem => ⟨clock, hrest e hmem⟩)
    · refine .exhausted _ (h.trans (lastError_append_quiet (fun e hmem => ?_)).symm)
      obtain rfl | hmem := List.mem_cons.mp hmem
      · rfl
      · exact recordFailure_quiet _ _ _ e hmem
  · rw [ha]
    exact h.trans (lastError_append_quiet (by simp [quiet])).symm

theorem failed_tells (o : Outcome) (kind : FailureKind)
    (h : (l.lastStatus, l.lastErrorBody) = noted (lastError es) (.received o)) :
    Tells d m.fleet (es ++ (failed lib d m l o kind sh).events)
      (failed lib d m l o kind sh).control := by
  have hquiet := recordFailure_quiet sh d.serviceId (m.clock 0)
  obtain ⟨e, ha⟩ | ha | ⟨b, -, -, -, -, ha⟩ := failed_cases lib d m l sh o kind
  · rw [ha]
    trivial
  · rw [ha]
    exact .exhausted l (h.trans (lastError_received es o hquiet).symm)
  · rw [ha]
    refine h.trans (lastError_received es o ?_).symm
    intro e hmem
    obtain hmem | hmem := List.mem_append.mp hmem
    · exact hquiet e hmem
    · rw [List.mem_singleton.mp hmem]
      rfl

theorem received_tells (o : Outcome) (h : (l.lastStatus, l.lastErrorBody) = lastError es) :
    Tells d m.fleet (es ++ (received lib d m l o sh).events)
      (received lib d m l o sh).control := by
  cases o with
  | response r =>
    by_cases hlow : r.statusCode < 500
    · simp only [received, hlow, or_true, ↓reduceIte]
      exact .passedOn r (lastOutcome_received es _ (by simp [quiet])) (.inl hlow)
    · by_cases hhigh : r.statusCode < 600
      · have hkind : classifyHttpStatus r.statusCode ≠ .success := by
          rw [Ne, classifyHttpStatus_eq_success_iff]
          omega
        simp only [received, hkind, hlow, or_self, ↓reduceIte]
        refine failed_tells lib d m sh _ _ ?_
        simp [noted, not_lt.mp hlow, hhigh]
      · have hkind : classifyHttpStatus r.statusCode = .success :=
          (classifyHttpStatus_eq_success_iff _).mpr (.inr (not_lt.mp hhigh))
        simp only [received, hkind, hlow, true_or, ↓reduceIte]
        exact .passedOn r (lastOutcome_received es _ (by simp)) (.inr (not_lt.mp hhigh))
  | raised e =>
    simp only [received]
    split_ifs
    · exact failed_tells lib d m sh _ _ h
    · exact failed_tells lib d m sh _ _ h
    · trivial
  | cancelled => trivial

theorem enter_tells : Tells d m.fleet (enter d m sh).events (enter d m sh).control := by
  let l : Locals := { attempt := 0, deadline := .new (m.clock 0) d.retryPolicy.totalDeadlineMs }
  have hfirst : (l.lastStatus, l.lastErrorBody) = lastError [] := rfl
  exact attempt_tells d m (sh.setBreaker d.serviceId (sh.breakerFor d.serviceId)) hfirst

variable {lib d m sh}

theorem resume_tells {c : Control} {signal : Signal} {seg : Segment} (h : Tells d m.fleet es c)
    (hseg : resume lib d m sh c signal = some seg) :
    Tells d m.fleet (es ++ seg.events) seg.control := by
  obtain ⟨l, o, rfl, -, rfl⟩ | ⟨l, rfl, -, rfl⟩ | ⟨l, -, rfl⟩ := resume_cases lib d m sh hseg
  · exact received_tells lib d m sh o h
  · exact attempt_tells d m sh h
  · trivial

end

theorem progress_scope {c c' : ConcurrencyManager} {r r' : Request} {w : Wake} {name : String}
    (h : progress c r w = some (c', r')) (hleft : r'.phase = .left (.backpressureRejected name)) :
    w = .timeout ∧ ∃ l, name = gateName r.ids l := by
  cases w with
  | timeout =>
    cases hp : r.phase with
    | waiting l | granted l =>
      simp only [progress, hp, Option.some.injEq] at h
      have hr : r' = _ := (congrArg Prod.snd h).symm
      simp only [hr, unwind, Phase.left.injEq, Exit.backpressureRejected.injEq] at hleft
      exact ⟨rfl, l, hleft.symm⟩
    | inside | left => simp [progress, hp] at h
  | grant =>
    cases hp : r.phase with
    | waiting l =>
      cases hg : c.gate? l (gateName r.ids l) with
      | none => simp [progress, hp, hg] at h
      | some g =>
        simp only [progress, hp, hg] at h
        split_ifs at h
        obtain rfl := (Prod.mk.inj (Option.some.inj h)).2
        cases hleft
    | granted | inside | left => simp [progress, hp] at h
  | resume =>
    cases hp : r.phase with
    | granted l =>
      simp only [progress, hp, Option.some.injEq, Prod.mk.injEq] at h
      obtain rfl := h.2
      cases l <;> cases hleft
    | waiting | inside | left => simp [progress, hp] at h
  | cancel | finish | fail =>
    cases hp : r.phase
    all_goals
      simp only [progress, hp, Option.some.injEq, reduceCtorEq] at h
    all_goals
      have hr : r' = _ := (congrArg Prod.snd h).symm
      simp [hr, unwind] at hleft

section

variable (lib : StringLibrary) (p : GatewayPipeline)

def trace (h : Handled) : List Event := h.moves.flatMap Move.events

def Matched (h : Handled) (route : RouteDefinition) : Prop :=
  p.routes.match lib h.inbound.tenantId h.inbound.method h.inbound.path = some route

/-- The reply is what the script of the request gave; there is none to an error. -/
def Replied (h : Handled) (reply : Option ScriptReply) : Prop :=
  ∀ r ∈ reply, ∃ mv ∈ h.moves, mv.cause = .script ∧
    ∃ overflow, r = .of overflow (h.evaluate mv.before.buckets).2

/-- Where the answer to a request comes from; `mv` is its last step. -/
inductive Explained (h : Handled) (mv : Move) : PipelineResult → Prop
  | payloadTooLarge (harrives : mv.cause = .arrival)
      (hsize : p.maxBodySizeBytes < (h.inbound.body.length : ℤ)) :
      Explained h mv (payloadTooLarge h.inbound)
  | routeNotFound (harrives : mv.cause = .arrival)
      (hsize : (h.inbound.body.length : ℤ) ≤ p.maxBodySizeBytes)
      (hnone : p.routes.match lib h.inbound.tenantId h.inbound.method h.inbound.path = none) :
      Explained h mv (routeNotFound h.inbound)
  | rateLimited (route : RouteDefinition) (reply : Option ScriptReply)
      (hmatched : Matched lib p h route) (hquiet : trace h = [])
      (hhears : mv.cause = .signal (.reply reply)) (hreplied : Replied h reply)
      (hrefused : (checkTokenBucket h.inbound.rateLimitPolicy reply).allowed = false) :
      Explained h mv (rateLimited h.inbound (checkTokenBucket h.inbound.rateLimitPolicy reply))
  | overloaded (route : RouteDefinition) (l : Level) (hmatched : Matched lib p h route)
      (hquiet : trace h = []) (hexpires : mv.cause = .signal (.gate .timeout)) :
      Explained h mv (overloaded h.inbound (gateName (idsOf h.inbound route) l))
  | dispatched (route : RouteDefinition) (result : PipelineResult)
      (hmatched : Matched lib p h route)
      (htold : Told (callOf p h.inbound route) mv.fleet (trace h) result) : Explained h mv result

def Known (h : Handled) : Stage → Prop
  | .limiting route => Matched lib p h route ∧ trace h = []
  | .acquiring route r => Matched lib p h route ∧ trace h = [] ∧ r.ids = idsOf h.inbound route
  | .dispatching route _ c =>
    Matched lib p h route ∧ ∀ fleet, Tells (callOf p h.inbound route) fleet (trace h) c
  | .done result => ∃ mv, h.moves.getLast? = some mv ∧ Explained lib p h mv result
  | .failed _ => True

structure Sound (h : Handled) : Prop where
  known : Known lib p h h.stage
  pending : Replied h h.pending

variable {lib p} {w w' : World} {h : Handled} {mv : Move}

theorem trace_move (h : Handled) (mv : Move) : trace (h.move mv) = trace h ++ mv.events := by
  simp [trace, Handled.move]

theorem getLast?_move (h : Handled) (mv : Move) : (h.move mv).moves.getLast? = some mv := by
  simp [Handled.move]

theorem Replied.move {reply : Option ScriptReply} (hr : Replied h reply) (mv : Move) :
    Replied (h.move mv) reply := by
  intro r hmem
  obtain ⟨mv', hmv', hrest⟩ := hr r hmem
  exact ⟨mv', List.mem_append_left _ hmv', hrest⟩

theorem inside_known {route : RouteDefinition} {r : Request} {m : ConcurrencyManager}
    {seg : Segment} (hmatched : Matched lib p h route) (hevents : mv.events = seg.events)
    (htells : Tells (callOf p h.inbound route) mv.fleet (trace h ++ seg.events) seg.control) :
    Known lib p (h.move mv) (inside route r m seg).stage := by
  rw [← hevents, ← trace_move] at htells
  cases hc : seg.control with
  | returned result =>
    simp only [inside, hc]
    rw [hc] at htells
    exact ⟨mv, getLast?_move h mv, .dispatched route result hmatched htells⟩
  | raised e =>
    simp only [inside, hc]
    trivial
  | forwarding l | sleeping l =>
    simp only [inside, hc]
    rw [hc] at htells
    exact ⟨hmatched, fun _ => htells⟩

theorem throughGates_known {route : RouteDefinition} {r : Request} {wake : Wake} {m : Moment}
    {st : Stretch} (hk : Known lib p h (.acquiring route r)) (hevents : mv.events = st.events)
    (hfleet : mv.fleet = m.fleet) (hcause : mv.cause = .signal (.gate wake))
    (hst : throughGates p h.inbound m w.backing.gateway route r wake = some st) :
    Known lib p (h.move mv) st.stage := by
  obtain ⟨hmatched, htrace, hids⟩ := hk
  obtain ⟨concurrency, r', hp, hcase⟩ := throughGates_cases hst
  have hids' : r'.ids = idsOf h.inbound route := (GateMoves.progress_ids hp).trans hids
  obtain rfl | ⟨-, rfl⟩ | ⟨scope, hleft, rfl⟩ | rfl := hcase
  · refine ⟨hmatched, ?_, hids'⟩
    rw [trace_move, htrace, hevents]
    rfl
  · refine inside_known hmatched (by rw [hevents, inside_events]) ?_
    rw [htrace, hfleet]
    exact enter_tells _ _ _
  · obtain ⟨rfl, l, rfl⟩ := progress_scope hp hleft
    refine ⟨mv, getLast?_move h mv, ?_⟩
    rw [hids]
    refine .overloaded route l hmatched ?_ hcause
    rw [trace_move, htrace, hevents]
    rfl
  · trivial

theorem resume_known {m : Moment} {signal : Resumption} {st : Stretch}
    (hk : Known lib p h h.stage) (hpending : Replied h h.pending)
    (hhears : h.hears signal = true) (hfleet : m.fleet = w.fleet)
    (hst : proceed lib p h.inbound m w.backing.gateway h.stage signal = some st) :
    Known lib p (h.move (resumed w signal st)) st.stage := by
  obtain ⟨route, reply, ⟨hstage, rfl⟩, ⟨hrefused, rfl⟩ | ⟨-, rfl⟩⟩ | ⟨route, -, rfl⟩ |
    ⟨route, r, wake, ⟨hstage, rfl⟩, hw⟩ | ⟨route, r, c, signal', seg, hstage, hseg, rfl⟩ :=
    proceed_cases hst
  · rw [hstage] at hk
    have hreplied : Replied h reply := by
      rintro r rfl
      exact hpending r (of_decide_eq_true hhears)
    refine ⟨_, getLast?_move h _, ?_⟩
    refine .rateLimited route reply hk.1 ?_ rfl (hreplied.move _) hrefused
    rw [trace_move, hk.2]
    rfl
  · rw [hstage] at hk
    refine ⟨hk.1, ?_, rfl⟩
    rw [trace_move, hk.2]
    rfl
  · trivial
  · rw [hstage] at hk
    exact throughGates_known hk rfl hfleet.symm rfl hw
  · rw [hstage] at hk
    refine inside_known hk.1 (by rw [resumed, inside_events]) ?_
    have htells := resume_tells (hk.2 m.fleet) hseg
    rwa [hfleet] at htells

theorem step_sound {a : Requests.Action} (hall : ∀ h ∈ w.requests, Sound lib p h)
    (hstep : step lib p w a w') : ∀ h ∈ w'.requests, Sound lib p h := by
  obtain ⟨q, nowMs, rfl, rfl⟩ | ⟨i, overflow, h, route, rfl, ⟨hi, hstage, -⟩, rfl⟩ |
    ⟨i, m, signal, h, s, rfl, ⟨hi, hhears, hst⟩, rfl⟩ | ⟨r, status, rfl, rfl⟩ |
    ⟨buckets, rfl, rfl⟩ := step_cases hstep
  · intro h hmem
    obtain hmem | rfl := (List.mem_append.mp hmem).imp_right List.mem_singleton.mp
    · exact hall h hmem
    · refine ⟨?_, by simp [Replied]⟩
      obtain ⟨hsize, he⟩ | ⟨hsize, ⟨hnone, he⟩ | ⟨route, hmatch, he⟩⟩ := handle_cases lib p q
      all_goals simp only [he]
      · exact ⟨_, rfl, .payloadTooLarge rfl hsize⟩
      · exact ⟨_, rfl, .routeNotFound rfl hsize hnone⟩
      · exact ⟨hmatch, rfl⟩
  · have hs := hall h (List.mem_of_getElem? hi)
    have hk := hs.known
    rw [hstage] at hk
    refine forall_mem_move hall ⟨?_, ?_⟩
    · rw [show (Handled.move _ (scripted w h)).stage = _ from hstage]
      refine ⟨hk.1, ?_⟩
      rw [trace_move]
      exact (List.append_nil _).trans hk.2
    · -- the script's own step stands behind the reply
      rintro r hr
      obtain rfl := Option.some.inj hr
      exact ⟨scripted w h, by simp [Handled.move], rfl, overflow, rfl⟩
  · have hs := hall h (List.mem_of_getElem? hi)
    exact forall_mem_move hall
      ⟨resume_known hs.known hs.pending hhears rfl hst, hs.pending.move _⟩
  · exact hall
  · exact hall

end

end Sentinel.Provenance
