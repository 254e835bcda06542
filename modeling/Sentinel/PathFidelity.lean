import Sentinel.Pipeline

namespace Sentinel.PathFidelity

open Runs Text Router Dispatch Pipeline

variable {lib : StringLibrary} {d : Call} {m : Moment} {sh : Shared} {route : RouteDefinition}

/-- Every forward goes to the selected instance under the literal part of the route's pattern. -/
def Aimed (route : RouteDefinition) (es : List Event) : Prop :=
  ∀ clock f, .forward clock f ∈ es → f.targetUrl = f.selected.url ++ rstrip route.pathPattern '*'

def Sent (d : Call) (es : List Event) : Prop :=
  ∀ clock f, .forward clock f ∈ es → ∃ selected remainingS, f = forwardOf d selected remainingS

theorem Sent.aimed {es : List Event} (h : Sent d es) : Aimed d.route es := by
  intro clock f hf
  obtain ⟨selected, remainingS, rfl⟩ := h clock f hf
  rfl

theorem sent_of_no_forward {es : List Event} (h : ∀ clock f, .forward clock f ∉ es) : Sent d es :=
  fun clock f hf => absurd hf (h clock f)

theorem attempt_sent (d : Call) (m : Moment) (l : Locals) (sh : Shared) :
    Sent d (attempt d m l sh).events := by
  obtain ⟨-, h⟩ | ⟨e, -, h⟩ | ⟨-, sel, clock, r, -, h⟩ | ⟨-, sel, ref, -, h⟩ :=
    attempt_cases d m l sh
  · rw [h]
    exact sent_of_no_forward (by simp)
  · rw [h]
    exact sent_of_no_forward (by simp)
  · rw [h]
    apply sent_of_no_forward
    simpa using recordFailure_no_forward (admitted d m sh sel) d.serviceId clock
  · rw [h]
    intro clock f hf
    obtain ⟨-, rfl⟩ : clock = m.clock 3 ∧ f = forwardOf d (m.fleet.get ref)
        (l.deadline.remainingSeconds (m.clock 2)) := by simpa using hf
    exact ⟨_, _, rfl⟩

theorem enter_sent (d : Call) (m : Moment) (sh : Shared) : Sent d (enter d m sh).events := by
  rw [enter]
  exact attempt_sent d m _ _

theorem received_sent (lib : StringLibrary) (d : Call) (m : Moment) (l : Locals) (o : Outcome)
    (sh : Shared) : Sent d (received lib d m l o sh).events := by
  apply sent_of_no_forward
  have hno := recordFailure_no_forward sh d.serviceId (m.clock 0)
  obtain ⟨r, -, -, h⟩ | ⟨-, -, l', kind, -, h⟩ | ⟨-, c, -, h⟩ := received_cases lib d m l sh o
  · simp [h]
  · rw [h]
    obtain ⟨e, h⟩ | h | ⟨b, -, -, -, -, h⟩ := failed_cases lib d m l' sh o kind
    all_goals simpa [h] using hno
  · simp [h]

theorem resume_sent {c : Control} {signal : Signal} {seg : Segment}
    (h : resume lib d m sh c signal = some seg) : Sent d seg.events := by
  obtain ⟨l, o, -, -, rfl⟩ | ⟨l, -, -, rfl⟩ | ⟨l, -, rfl⟩ := resume_cases lib d m sh h
  · exact received_sent lib d m l o sh
  · exact attempt_sent d m l sh
  · exact sent_of_no_forward (by simp)

def routeOf : Stage → Option RouteDefinition
  | .limiting route | .acquiring route _ | .dispatching route _ _ => some route
  | .done _ | .failed _ => none

theorem proceed_sent {p : GatewayPipeline} {q : Inbound} {g : Gateway} {stage : Stage}
    {signal : Resumption} {s : Stretch} (h : proceed lib p q m g stage signal = some s) :
    ∃ route, routeOf stage = some route ∧ Sent (callOf p q route) s.events ∧
      ∀ route', routeOf s.stage = some route' → route' = route := by
  have hinside : ∀ route r concurrency seg, Sent (callOf p q route) seg.events →
      Sent (callOf p q route) (inside route r concurrency seg).events ∧
        ∀ route', routeOf (inside route r concurrency seg).stage = some route' →
          route' = route := by
    intro route r concurrency seg hseg
    cases hc : seg.control <;> simp [inside, hc, routeOf, hseg, eq_comm]
  obtain ⟨route, reply, ⟨rfl, -⟩, ⟨-, rfl⟩ | ⟨-, rfl⟩⟩ | ⟨route, rfl, rfl⟩ |
    ⟨route, r, w, ⟨rfl, -⟩, hgates⟩ | ⟨route, r, c, signal', seg, rfl, hseg, rfl⟩ := proceed_cases h
  · exact ⟨route, rfl, sent_of_no_forward (by simp), by simp [routeOf]⟩
  · exact ⟨route, rfl, sent_of_no_forward (by simp), by simp [routeOf, eq_comm]⟩
  · exact ⟨route, rfl, sent_of_no_forward (by simp), by simp [routeOf]⟩
  · obtain ⟨concurrency, r', -, rfl | ⟨-, rfl⟩ | ⟨scope, -, rfl⟩ | rfl⟩ := throughGates_cases hgates
    · exact ⟨route, rfl, sent_of_no_forward (by simp), by simp [routeOf, eq_comm]⟩
    · exact ⟨route, rfl, hinside route r' concurrency (enter (callOf p q route) m g.shared)
        (enter_sent (callOf p q route) m g.shared)⟩
    · exact ⟨route, rfl, sent_of_no_forward (by simp), by simp [routeOf]⟩
    · exact ⟨route, rfl, sent_of_no_forward (by simp), by simp [routeOf]⟩
  · exact ⟨route, rfl, hinside route r g.concurrency seg (resume_sent hseg)⟩

theorem reaches_sent {p : GatewayPipeline} {q : Inbound} {t : Handling}
    (h : Reaches (step lib p q) (start lib p q) t) {clock : ℚ} {f : Forward}
    (hf : .forward clock f ∈ t.trace) :
    ∃ route selected remainingS, f = forwardOf (callOf p q route) selected remainingS := by
  have hall := h.invariant (I := fun t => ∀ clock f, .forward clock f ∈ t.trace →
    ∃ route selected remainingS, f = forwardOf (callOf p q route) selected remainingS) ?_
    (by simp [start])
  · exact hall clock f hf
  intro t i t' ht hstep clock f hf
  obtain ⟨s, hs, rfl⟩ := Option.map_eq_some_iff.mp hstep
  obtain ⟨route, -, hsent, -⟩ := proceed_sent hs
  obtain hf | hf := List.mem_append.mp hf
  · exact ht clock f hf
  · exact ⟨route, hsent clock f hf⟩

/-- What a request has done, it has done for the route that matched it. -/
structure Bound (lib : StringLibrary) (p : GatewayPipeline) (q : Inbound) (t : Handling) :
    Prop where
  stage : ∀ route, routeOf t.stage = some route →
    p.routes.match lib q.tenantId q.method q.path = some route
  trace : ∀ clock f, .forward clock f ∈ t.trace → ∃ route,
    p.routes.match lib q.tenantId q.method q.path = some route ∧
      f.targetUrl = f.selected.url ++ rstrip route.pathPattern '*'

theorem start_bound (lib : StringLibrary) (p : GatewayPipeline) (q : Inbound) :
    Bound lib p q (start lib p q) := by
  refine ⟨fun route hroute => ?_, by simp [start]⟩
  simp only [start, handle] at hroute
  split_ifs at hroute
  · simp [routeOf] at hroute
  · cases hmatch : p.routes.match lib q.tenantId q.method q.path with
    | none => simp [hmatch, routeOf] at hroute
    | some route' => simpa [hmatch, routeOf] using hroute

theorem step_bound {p : GatewayPipeline} {q : Inbound} (t : Handling)
    (i : Gateway × Moment × Resumption) (t' : Handling) (hb : Bound lib p q t)
    (h : step lib p q t i t') : Bound lib p q t' := by
  obtain ⟨s, hs, rfl⟩ := Option.map_eq_some_iff.mp h
  obtain ⟨route, hroute, hsent, hsame⟩ := proceed_sent hs
  constructor
  · intro route' hroute'
    rw [hsame route' hroute']
    exact hb.stage route hroute
  · intro clock f hf
    obtain hf | hf := List.mem_append.mp hf
    · exact hb.trace clock f hf
    · exact ⟨route, hb.stage route hroute, hsent.aimed clock f hf⟩

theorem reaches_bound {p : GatewayPipeline} {q : Inbound} {t : Handling}
    (h : Reaches (step lib p q) (start lib p q) t) : Bound lib p q t :=
  h.invariant step_bound (start_bound lib p q)

/-- A forward keeps the path of its request exactly when that path is the route's pattern without
its trailing stars, and two requests of one route go to different targets exactly when they go to
different instances. -/
theorem target_keeps_path_iff (lib : StringLibrary) (p : GatewayPipeline) (q : Inbound)
    {t : Handling} (h : Reaches (step lib p q) (start lib p q) t) {clock : ℚ} {f : Forward}
    (hf : .forward clock f ∈ t.trace) :
    ∃ route, p.routes.match lib q.tenantId q.method q.path = some route ∧
      (f.targetUrl = f.selected.url ++ q.path ↔ q.path = rstrip route.pathPattern '*') ∧
      ∀ (q' : Inbound) (t' : Handling) (clock' : ℚ) (f' : Forward),
        Reaches (step lib p q') (start lib p q') t' → .forward clock' f' ∈ t'.trace →
        p.routes.match lib q'.tenantId q'.method q'.path = some route →
        (f'.targetUrl ≠ f.targetUrl ↔ f'.selected.url ≠ f.selected.url) := by
  obtain ⟨route, hroute, htarget⟩ := (reaches_bound h).trace clock f hf
  refine ⟨route, hroute, ?_, fun q' t' clock' f' h' hf' hroute' => ?_⟩
  · rw [htarget, String.append_right_inj]
    exact eq_comm
  · obtain ⟨route', hmatch, htarget'⟩ := (reaches_bound h').trace clock' f' hf'
    obtain rfl : route' = route := Option.some.inj (hmatch.symm.trans hroute')
    rw [htarget, htarget', Ne, String.append_left_inj]

def users : GatewayPipeline := ⟨RouteMatcher.new [usersRoute], 1048576, "sentinel-1"⟩

def getPath (path : String) : Inbound :=
  { requestId := "r1", tenantId := "acme", method := "GET", path := path, headers := .empty
    params := .empty, body := [], clientIp := "10.0.0.7"
    rateLimitPolicy := { capacity := 100, refillRate := 100 }, rateLimitKey := "rl:apikey:k1"
    retryPolicy := {} }

def alone : List (Gateway × Moment × Resumption) :=
  let idle : Gateway :=
    ⟨fresh, (Gates.ConcurrencyManager.new {}).register ⟨"acme", "users", "users-svc"⟩⟩
  let signals : List Resumption :=
    .reply (some ⟨1, 99, 0⟩) :: (List.replicate 4 [.gate .grant, .gate .resume]).flatten
  signals.map (fun signal => (idle, instant 0, signal))

def anyForward (P : Forward → Bool) (es : List Event) : Bool :=
  es.any (fun e => match e with | .forward _ f => P f | _ => false)

theorem exists_forward {P : Forward → Bool} {es : List Event} (h : anyForward P es = true) :
    ∃ clock f, .forward clock f ∈ es ∧ P f = true := by
  obtain ⟨e, he, hP⟩ := List.any_eq_true.mp h
  cases e with
  | forward clock f => exact ⟨clock, f, he, hP⟩
  | beforeRequest | received | recordSuccess | recordFailure | opened | sleep => cases hP

theorem target_keeps_collection_path : ∃ t clock f,
    Reaches (step posix users (getPath "/users/")) (start posix users (getPath "/users/")) t ∧
      .forward clock f ∈ t.trace ∧ f.targetUrl = f.selected.url ++ "/users/" := by
  obtain ⟨t, hr, ht⟩ := Reaches.of_check (next posix users (getPath "/users/"))
    (fun t => anyForward (fun _ => true) t.trace) (start posix users (getPath "/users/")) alone
    (by decide +kernel)
  obtain ⟨clock, f, hf, -⟩ := exists_forward ht
  obtain ⟨route, hroute, hiff, -⟩ := target_keeps_path_iff posix users (getPath "/users/") hr hf
  have husers : users.routes.match posix "acme" "GET" "/users/" = some usersRoute := by
    decide +kernel
  obtain rfl : usersRoute = route := Option.some.inj (husers.symm.trans hroute)
  exact ⟨t, clock, f, hr, hf, hiff.mpr (by decide +kernel)⟩

/-- `/users/42` and `/users/43` both go to `http://users:8080/users/`. -/
theorem target_drops_path : ∃ t clock f t' clock' f',
    Reaches (step posix users (getPath "/users/42")) (start posix users (getPath "/users/42")) t ∧
    .forward clock f ∈ t.trace ∧ f.targetUrl ≠ f.selected.url ++ "/users/42" ∧
    Reaches (step posix users (getPath "/users/43")) (start posix users (getPath "/users/43")) t' ∧
    .forward clock' f' ∈ t'.trace ∧ f'.targetUrl = f.targetUrl := by
  obtain ⟨t, hr, ht⟩ := Reaches.of_check (next posix users (getPath "/users/42"))
    (fun t => anyForward (fun f => f.targetUrl ≠ f.selected.url ++ "/users/42" ∧
      f.targetUrl = "http://users:8080/users/") t.trace)
    (start posix users (getPath "/users/42")) alone (by decide +kernel)
  obtain ⟨t', hr', ht'⟩ := Reaches.of_check (next posix users (getPath "/users/43"))
    (fun t => anyForward (fun f => f.targetUrl = "http://users:8080/users/") t.trace)
    (start posix users (getPath "/users/43")) alone (by decide +kernel)
  obtain ⟨clock, f, hf, hP⟩ := exists_forward ht
  obtain ⟨clock', f', hf', hP'⟩ := exists_forward ht'
  simp only [decide_eq_true_eq] at hP hP'
  exact ⟨t, clock, f, t', clock', f', hr, hf, hP.1, hr', hf', hP'.trans hP.2.symm⟩

end Sentinel.PathFidelity
