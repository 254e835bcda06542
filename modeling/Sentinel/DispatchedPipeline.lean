import Sentinel.Dispatches
import Sentinel.PipelineProgress

namespace Sentinel.DispatchedPipeline

open Runs Text Router Dispatch Pipeline PipelineProgress Tally Simulation
open PathFidelity StageGating
open Gates hiding Event next step init System
open Requests hiding next step start
open Dispatches (System record)

/-- The requests of a gateway with the last clock reading and with all that their dispatches did,
each event with the backend service it is about. -/
structure Timed where
  world : World
  now : ℚ
  log : List (String × Event) := []

def serviceOf : Stage → String
  | .limiting route | .acquiring route _ | .dispatching route _ _ => route.backendServiceId
  | .done _ | .failed _ => ""

section

variable (lib : StringLibrary) (p : GatewayPipeline)

def happened (w : World) : Requests.Action → List (String × Event)
  | .resume i m signal =>
    match w.requests[i]? with
    | some h =>
      match proceed lib p h.inbound { m with fleet := w.fleet } w.backing.gateway h.stage
        signal with
      | some s => s.events.map (fun e => (serviceOf h.stage, e))
      | none => []
    | none => []
  | _ => []

def tick (now : ℚ) : Requests.Action → Option ℚ
  | .resume _ m _ => if now ≤ m.clock 0 then some (m.clock 3) else none
  | _ => some now

def next (t : Timed) (a : Requests.Action) : Option Timed :=
  match Requests.next lib p t.world a, tick t.now a with
  | some world, some now => some ⟨world, now, t.log ++ happened lib p t.world a⟩
  | _, _ => none

def step (t : Timed) (a : Requests.Action) (t' : Timed) : Prop := next lib p t a = some t'

def start (fleet : Fleet) (backing : Backing) (now : ℚ) : Timed :=
  { world := Requests.start fleet backing, now }

end

def dispatchOf (p : GatewayPipeline) (q : Inbound) : Stage → Option (Call × Control)
  | .dispatching route _ c => some (callOf p q route, c)
  | _ => none

def unfinished (d : Call) (c : Control) : Option (Call × Control) :=
  match c with
  | .forwarding _ | .sleeping _ => some (d, c)
  | .returned _ | .raised _ => none

/-- The dispatches of the pipeline are a system of dispatches. -/
structure Refines (p : GatewayPipeline) (t : Timed) (s : System) : Prop where
  shared : s.shared = t.world.backing.gateway.shared
  now : s.now ≤ t.now
  log : s.log = t.log
  tasks : (t.world.requests.filterMap (fun h => dispatchOf p h.inbound h.stage)).Perm
    (s.tasks.filterMap (fun task => unfinished task.call task.control))

section

variable {lib : StringLibrary} {p : GatewayPipeline} {q : Inbound} {m : Moment} {g : Gateway}
  {stage : Stage} {signal : Resumption} {st : Stretch}

theorem inside_dispatchOf (route : RouteDefinition) (r : Request)
    (concurrency : ConcurrencyManager) (seg : Segment) :
    dispatchOf p q (inside route r concurrency seg).stage =
      unfinished (callOf p q route) seg.control := by
  cases hc : seg.control with
  | returned | raised | forwarding | sleeping => simp [inside, hc, dispatchOf, unfinished]

theorem proceed_dispatches (h : proceed lib p q m g stage signal = some st) :
    (dispatchOf p q stage = none ∧ dispatchOf p q st.stage = none ∧
      st.gateway.shared = g.shared ∧ st.events = []) ∨
    (∃ route r concurrency, dispatchOf p q stage = none ∧
      serviceOf stage = route.backendServiceId ∧
      st = inside route r concurrency (enter (callOf p q route) m g.shared)) ∨
    (∃ route r c signal' seg, dispatchOf p q stage = some (callOf p q route, c) ∧
      serviceOf stage = route.backendServiceId ∧
      resume lib (callOf p q route) m g.shared c signal' = some seg ∧
      st = inside route r g.concurrency seg) := by
  obtain ⟨route, reply, ⟨rfl, -⟩, ⟨-, rfl⟩ | ⟨-, rfl⟩⟩ | ⟨route, rfl, rfl⟩ |
    ⟨route, r, w, ⟨rfl, -⟩, hw⟩ | ⟨route, r, c, signal', seg, rfl, hseg, rfl⟩ := proceed_cases h
  · exact .inl ⟨rfl, rfl, rfl, rfl⟩
  · exact .inl ⟨rfl, rfl, rfl, rfl⟩
  · exact .inl ⟨rfl, rfl, rfl, rfl⟩
  · obtain ⟨concurrency, r', -, rfl | ⟨-, rfl⟩ | ⟨scope, -, rfl⟩ | rfl⟩ := throughGates_cases hw
    · exact .inl ⟨rfl, rfl, rfl, rfl⟩
    · exact .inr (.inl ⟨route, r', concurrency, rfl, rfl, rfl⟩)
    · exact .inl ⟨rfl, rfl, rfl, rfl⟩
    · exact .inl ⟨rfl, rfl, rfl, rfl⟩
  · exact .inr (.inr ⟨route, r, c, signal', seg, rfl, rfl, hseg, rfl⟩)

end

variable {lib : StringLibrary} {p : GatewayPipeline} {t t' : Timed} {s : System}

theorem step_cases {a : Requests.Action} (h : step lib p t a t') :
    Requests.step lib p t.world a t'.world ∧ tick t.now a = some t'.now ∧
      t'.log = t.log ++ happened lib p t.world a := by
  simp only [step, next] at h
  split at h
  · next world now hworld hnow =>
    cases h
    exact ⟨hworld, hnow, rfl⟩
  · cases h

theorem happened_resume {i : ℕ} {m : Moment} {signal : Resumption} {h : Handled} {st : Stretch}
    (hi : t.world.requests[i]? = some h)
    (hst : proceed lib p h.inbound { m with fleet := t.world.fleet } t.world.backing.gateway h.stage
      signal = some st) :
    happened lib p t.world (.resume i m signal) =
      st.events.map (fun e => (serviceOf h.stage, e)) := by
  simp only [happened, hi, hst]

theorem unfinished_eq_some {d : Call} {c : Control} {x : Call × Control}
    (h : unfinished d c = some x) : x = (d, c) := by
  cases c with
  | forwarding | sleeping => exact (Option.some.inj h).symm
  | returned | raised => cases h

theorem resume_refines (hR : Refines p t s) {i : ℕ} {m : Moment} {signal : Resumption}
    {h : Handled} {st : Stretch} (hi : t.world.requests[i]? = some h)
    (hst : proceed lib p h.inbound { m with fleet := t.world.fleet } t.world.backing.gateway h.stage
      signal = some st) (hnow : t.now ≤ m.clock 0) :
    ∃ s', Reaches (Dispatches.step lib) s s' ∧
      Refines p ⟨t.world.move i h (resumed t.world signal st), m.clock 3,
        t.log ++ st.events.map (fun e => (serviceOf h.stage, e))⟩ s' := by
  have hready : s.now ≤ m.clock 0 := hR.now.trans hnow
  obtain ⟨hold, hnew, hshared, hevents⟩ | ⟨route, r, concurrency, hold, hservice, rfl⟩ |
    ⟨route, r, c, signal', seg, hold, hservice, hseg, rfl⟩ := proceed_dispatches hst
  · refine ⟨s, .refl s, hR.shared.trans hshared.symm, ?_, by simp [hevents, hR.log], ?_⟩
    · exact hready.trans (m.mono (by omega))
    · exact (filterMap_set_perm_of_none hi hold hnew).trans hR.tasks
  · let d := callOf p h.inbound route
    let m' : Moment := { m with fleet := t.world.fleet }
    refine ⟨record s d.serviceId m' (enter d m' s.shared) (s.tasks ++ [Task.start d m' s.shared]),
      .head (i := (m', .dispatch d)) ?_ (.refl _), ?_, le_rfl, ?_, ?_⟩
    · simp only [Dispatches.step, Dispatches.next]
      exact if_pos hready
    · rw [hR.shared]
      exact (inside_shared _ _ _ _).symm
    · rw [inside_events, hservice, ← hR.log, hR.shared]
      rfl
    · refine perm_filterMap_set_concat hR.tasks hi hold ?_
      simp only [Handled.move, resumed, inside_dispatchOf, Task.start, hR.shared]
      rfl
  · have hmem : (callOf p h.inbound route, c) ∈
        t.world.requests.filterMap (fun h => dispatchOf p h.inbound h.stage) :=
      List.mem_filterMap.mpr ⟨h, List.mem_of_getElem? hi, hold⟩
    obtain ⟨task, htask, hopen⟩ := List.mem_filterMap.mp (hR.tasks.mem_iff.mp hmem)
    obtain ⟨hcall, hcontrol⟩ := Prod.mk.inj (unfinished_eq_some hopen)
    obtain ⟨j, hj⟩ := List.mem_iff_getElem?.mp htask
    let m' : Moment := { m with fleet := t.world.fleet }
    refine ⟨record s task.call.serviceId m' seg (s.tasks.set j (task.advance seg)),
      .head (i := (m', .resume j signal')) ?_ (.refl _), (inside_shared _ _ _ _).symm, le_rfl,
      ?_, ?_⟩
    · have hseg' : resume lib task.call m' s.shared task.control signal' = some seg := by
        rw [hR.shared, ← hcall, ← hcontrol]
        exact hseg
      simp only [Dispatches.step, Dispatches.next, hj, hseg', Option.map_some]
      exact if_pos hready
    · rw [inside_events, hservice, ← hR.log, ← hcall]
      rfl
    · refine perm_filterMap_set hR.tasks hi hj (hold.trans hopen.symm) ?_
      simp only [Handled.move, resumed, inside_dispatchOf, Task.advance, ← hcall]

theorem step_refines {a : Requests.Action} (hR : Refines p t s) (hstep : step lib p t a t') :
    ∃ s', Reaches (Dispatches.step lib) s s' ∧ Refines p t' s' := by
  obtain ⟨hworld, htick, hlog⟩ := step_cases hstep
  obtain ⟨world, now, log⟩ := t'
  dsimp only at hworld htick hlog
  obtain ⟨q, nowMs, rfl, rfl⟩ | ⟨i, overflow, h, route, rfl, ⟨hi, hstage, -⟩, rfl⟩ |
    ⟨i, m, signal, h, st, rfl, ⟨hi, -, hst⟩, rfl⟩ | ⟨r, status, rfl, rfl⟩ | ⟨buckets, rfl, rfl⟩ :=
    Requests.step_cases hworld
  · obtain rfl := Option.some.inj htick
    have hnone : dispatchOf p q (handle lib p q) = none := by
      obtain ⟨-, he⟩ | ⟨-, ⟨-, he⟩ | ⟨route, -, he⟩⟩ := handle_cases lib p q
      all_goals simp [he, dispatchOf]
    refine ⟨s, .refl s, hR.shared, hR.now, by simp [hlog, happened, hR.log], ?_⟩
    simpa [hnone] using hR.tasks
  · obtain rfl := Option.some.inj htick
    refine ⟨s, .refl s, hR.shared, hR.now, by simp [hlog, happened, hR.log], ?_⟩
    exact (filterMap_set_perm_of_none hi (by rw [hstage]; rfl)
      (by simp [Handled.move, scripted, hstage, dispatchOf])).trans hR.tasks
  · simp only [tick] at htick
    split_ifs at htick with hnow
    obtain rfl := Option.some.inj htick
    rw [happened_resume hi hst] at hlog
    subst hlog
    exact resume_refines hR hi hst hnow
  · obtain rfl := Option.some.inj htick
    exact ⟨s, .refl s, hR.shared, hR.now, by simp [hlog, happened, hR.log], hR.tasks⟩
  · obtain rfl := Option.some.inj htick
    exact ⟨s, .refl s, hR.shared, hR.now, by simp [hlog, happened, hR.log], hR.tasks⟩

theorem reaches_refines (h : Reaches (step lib p) t t') (hR : Refines p t s) :
    ∃ s', Reaches (Dispatches.step lib) s s' ∧ Refines p t' s' :=
  reaches_of_simulation (R := Refines p) (fun _ _ _ _ hR hstep => step_refines hR hstep) h hR

theorem refines_start (p : GatewayPipeline) (fleet : Fleet) (backing : Backing) (now : ℚ) :
    Refines p (start fleet backing now) (Dispatches.init backing.gateway.shared now) :=
  ⟨rfl, le_rfl, rfl, .refl _⟩

/-- Whatever its requests do on the way, the pipeline sends what a system of dispatches sends, with
the same breakers and in the same order. -/
theorem pipeline_refines_dispatches {lib : StringLibrary} {p : GatewayPipeline} {fleet : Fleet}
    {backing : Backing} {now : ℚ} {t : Timed}
    (h : Reaches (step lib p) (start fleet backing now) t) :
    ∃ s, Reaches (Dispatches.step lib) (Dispatches.init backing.gateway.shared now) s ∧
      Refines p t s := reaches_refines h (refines_start p fleet backing now)

theorem pipeline_refines_dispatches_users : ∃ t s,
    Reaches (step posix users) (start usersFleet idleBacking 0) t ∧ t.log.length = 6 ∧
    Reaches (Dispatches.step posix) (Dispatches.init fresh 0) s ∧ Refines users t s := by
  obtain ⟨t, ht, hc⟩ := Reaches.of_check (next posix users) (fun t => t.log.length = 6)
    (start usersFleet idleBacking 0)
    (forwarded 0 99 ++
      [.resume 0 (instant 0) (.dispatch (.outcome (.response ⟨200, .empty, []⟩)))] ++
      forwarded 1 98) (by decide +kernel)
  obtain ⟨s, hs, hR⟩ := pipeline_refines_dispatches ht
  exact ⟨t, s, ht, of_decide_eq_true hc, hs, hR⟩

end Sentinel.DispatchedPipeline
