import Sentinel.Segments
import Sentinel.Simulation
import Sentinel.Tally

namespace Sentinel.ServiceIsolation

open Runs Text Breaker Router Retry Selection Dispatch Dispatches Segments Simulation Tally

/-- Two shared states that a dispatch to the service cannot tell apart. -/
structure Alike (x : String) (sh sh' : Shared) : Prop where
  breaker : sh.breakerFor x = sh'.breakerFor x
  cycle : sh.selector.cycles.get? x = sh'.selector.cycles.get? x

structure Same (x : String) (seg seg' : Segment) : Prop where
  shared : Alike x seg.shared seg'.shared
  events : seg.events = seg'.events
  control : seg.control = seg'.control

theorem select_alike {sel sel' : WeightedRoundRobinSelector} {x : String}
    (h : sel.cycles.get? x = sel'.cycles.get? x) (fleet : Fleet) (shuffle : Shuffle)
    (instances : List Ref) :
    (sel.select fleet shuffle x instances).2 = (sel'.select fleet shuffle x instances).2 ∧
      (sel.select fleet shuffle x instances).1.cycles.get? x =
        (sel'.select fleet shuffle x instances).1.cycles.get? x := by
  by_cases hr : routable fleet instances = []
  · have hnone : ∀ sel : WeightedRoundRobinSelector,
        sel.select fleet shuffle x instances = (sel, none) := fun _ => dif_pos hr
    rw [hnone, hnone]
    exact ⟨rfl, h⟩
  · have hcycle : cycleFor fleet sel x shuffle instances hr =
        cycleFor fleet sel' x shuffle instances hr := by
      unfold cycleFor
      rw [h]
    rw [select_of_routable _ _ _ _ _ hr, select_of_routable _ _ _ _ _ hr, hcycle]
    simp [Dict.get?_set]

theorem select_other (sel : WeightedRoundRobinSelector) {x y : String} (hxy : y ≠ x)
    (fleet : Fleet) (shuffle : Shuffle) (instances : List Ref) :
    (sel.select fleet shuffle x instances).1.cycles.get? y = sel.cycles.get? y := by
  obtain ⟨-, he⟩ | ⟨-, c, -, he⟩ := select_cases fleet sel x shuffle instances
  · rw [he]
  · rw [he]
    simp [Dict.get?_set, hxy]

section

variable {x : String} {sh sh' : Shared}

theorem Alike.setBreaker (h : Alike x sh sh') (b : CircuitBreaker) :
    Alike x (sh.setBreaker x b) (sh'.setBreaker x b) :=
  ⟨by simp, h.cycle⟩

theorem Alike.recordFailure (h : Alike x sh sh') (clock : ℚ) :
    Alike x (sh.recordFailure x clock).1 (sh'.recordFailure x clock).1 ∧
      (sh.recordFailure x clock).2 = (sh'.recordFailure x clock).2 := by
  simp only [Shared.recordFailure, h.breaker]
  exact ⟨h.setBreaker _, trivial⟩

theorem attempt_same (d : Call) (m : Moment) (l : Locals) (h : Alike d.serviceId sh sh') :
    Same d.serviceId (attempt d m l sh) (attempt d m l sh') := by
  by_cases hmax : (l.attempt : ℤ) < d.retryPolicy.maxAttempts
  · have hset := h.setBreaker (beforeRequest (m.clock 1) (sh'.breakerFor d.serviceId)).1
    simp only [attempt, hmax, ↓reduceIte, h.breaker]
    cases (beforeRequest (m.clock 1) (sh'.breakerFor d.serviceId)).2 with
    | error e => exact ⟨hset, rfl, rfl⟩
    | ok _ =>
      obtain ⟨hchosen, hcycle⟩ := select_alike hset.cycle m.fleet m.shuffle
        ((m.fleet.byService.get? d.serviceId).getD [])
      have hsel : ∀ sel sel' : WeightedRoundRobinSelector,
          sel.cycles.get? d.serviceId = sel'.cycles.get? d.serviceId →
          Alike d.serviceId
            { sh.setBreaker d.serviceId (beforeRequest (m.clock 1)
              (sh'.breakerFor d.serviceId)).1 with selector := sel }
            { sh'.setBreaker d.serviceId (beforeRequest (m.clock 1)
              (sh'.breakerFor d.serviceId)).1 with selector := sel' } :=
        fun sel sel' he => ⟨hset.breaker, he⟩
      have hnew := hsel _ _ hcycle
      simp only [hchosen]
      cases ((sh'.setBreaker d.serviceId _).selector.select m.fleet m.shuffle d.serviceId _).2 with
      | none =>
        obtain ⟨ha, he⟩ := hnew.recordFailure (m.clock 2)
        exact ⟨ha, by simp only [he], by simp only [he]⟩
      | some ref =>
        simp only
        split_ifs
        · obtain ⟨ha, he⟩ := hnew.recordFailure (m.clock 3)
          exact ⟨ha, by simp only [he], by simp only [he]⟩
        · exact ⟨hnew, rfl, rfl⟩
  · simp only [attempt, hmax, ↓reduceIte]
    exact ⟨h, rfl, rfl⟩

theorem failed_same (lib : StringLibrary) (d : Call) (m : Moment) (l : Locals) (o : Outcome)
    (kind : FailureKind) (h : Alike d.serviceId sh sh') :
    Same d.serviceId (failed lib d m l o kind sh) (failed lib d m l o kind sh') := by
  obtain ⟨ha, he⟩ := h.recordFailure (m.clock 0)
  have hread : failureRead d m sh = failureRead d m sh' := by
    simp only [failureRead, ha.breaker]
  have hset := ha.setBreaker (failureRead d m sh')
  simp only [failed, he, hread]
  cases (sh'.recordFailure d.serviceId (m.clock 0)).2.2 with
  | error e => exact ⟨ha, rfl, rfl⟩
  | ok _ =>
    simp only
    split_ifs
    all_goals exact ⟨hset, rfl, rfl⟩

theorem received_same (lib : StringLibrary) (d : Call) (m : Moment) (l : Locals) (o : Outcome)
    (h : Alike d.serviceId sh sh') :
    Same d.serviceId (received lib d m l o sh) (received lib d m l o sh') := by
  cases o with
  | response r =>
    have hset := h.setBreaker (recordSuccess (sh'.breakerFor d.serviceId))
    simp only [received, h.breaker]
    split_ifs
    · exact ⟨hset, rfl, rfl⟩
    · exact ⟨h, rfl, rfl⟩
    · exact failed_same lib d m _ _ _ h
  | raised e =>
    simp only [received]
    split_ifs
    · exact failed_same lib d m l _ _ h
    · exact failed_same lib d m l _ _ h
    · exact ⟨h, rfl, rfl⟩
  | cancelled => exact ⟨h, rfl, rfl⟩

theorem enter_same (d : Call) (m : Moment) (h : Alike d.serviceId sh sh') :
    Same d.serviceId (enter d m sh) (enter d m sh') := by
  simp only [enter, h.breaker]
  exact attempt_same d m _ (h.setBreaker _)

theorem resume_same {lib : StringLibrary} {d : Call} {m : Moment} {c : Control} {signal : Signal}
    {seg : Segment} (h : Alike d.serviceId sh sh') (hseg : resume lib d m sh c signal = some seg) :
    ∃ seg', resume lib d m sh' c signal = some seg' ∧ Same d.serviceId seg seg' := by
  obtain ⟨l, o, rfl, rfl, rfl⟩ | ⟨l, rfl, rfl, rfl⟩ | ⟨l, ⟨rfl, rfl⟩, rfl⟩ :=
    resume_cases lib d m sh hseg
  · exact ⟨_, rfl, received_same lib d m l o h⟩
  · exact ⟨_, rfl, attempt_same d m l h⟩
  · exact ⟨_, rfl, h, rfl, rfl⟩

theorem alike_of_staged {d : Call} {m : Moment} {seg : Segment} (hx : x ≠ d.serviceId)
    (hstaged : Staged d m sh seg) (hbreaker : seg.shared.breakerFor x = sh.breakerFor x) :
    Alike x seg.shared sh := by
  refine ⟨hbreaker, ?_⟩
  obtain he | he := hstaged.selector
  · rw [he]
  · rw [he]
    exact select_other sh.selector hx m.fleet m.shuffle _

end

theorem Alike.trans {x : String} {sh₁ sh₂ sh₃ : Shared} (h : Alike x sh₁ sh₂)
    (h' : Alike x sh₂ sh₃) : Alike x sh₁ sh₃ :=
  ⟨h.breaker.trans h'.breaker, h.cycle.trans h'.cycle⟩

def serves (x : String) (t : Task) : Bool := t.call.serviceId = x

/-- `s'` is what remains of `s` when all is left out that is not about the service. -/
structure Seen (x : String) (s s' : System) : Prop where
  shared : Alike x s.shared s'.shared
  tasks : s'.tasks = s.tasks.filter (serves x)
  events : s'.log = s.log.filter (fun e => e.1 = x)
  now : s'.now ≤ s.now

/-- A step as it is taken when only one service is used: tasks have other numbers. -/
inductive Projects (x : String) : Moment × Action → Moment × Action → Prop
  | dispatch (m : Moment) (d : Call) (h : d.serviceId = x) :
      Projects x (m, .dispatch d) (m, .dispatch d)
  | resume (m : Moment) (k k' : ℕ) (signal : Signal) :
      Projects x (m, .resume k signal) (m, .resume k' signal)

section

variable {lib : StringLibrary} {x : String} {s s' t : System}

theorem log_filter_self (serviceId : String) (events : List Event) :
    (events.map (fun e => (serviceId, e))).filter (fun e => e.1 = serviceId) =
      events.map (fun e => (serviceId, e)) := by
  simp [List.filter_map, Function.comp_def]

theorem log_filter_other {serviceId : String} (h : serviceId ≠ x) (events : List Event) :
    (events.map (fun e => (serviceId, e))).filter (fun e => e.1 = x) = [] := by
  simp [h]

theorem Seen.stutter (hs : Seen x s s') {serviceId : String} (hx : serviceId ≠ x) {m : Moment}
    {seg : Segment} {tasks : List Task} (hclock : s.now ≤ m.clock 0)
    (hshared : Alike x seg.shared s.shared)
    (htasks : tasks.filter (serves x) = s.tasks.filter (serves x)) :
    Seen x (record s serviceId m seg tasks) s' := by
  refine ⟨hshared.trans hs.shared, hs.tasks.trans htasks.symm, ?_, ?_⟩
  · simp only [record, List.filter_append, log_filter_other hx, List.append_nil]
    exact hs.events
  · exact hs.now.trans (hclock.trans (m.mono (Nat.zero_le 3)))

theorem Seen.record (hs : Seen x s s') {m : Moment} {seg seg' : Segment}
    {tasks tasks' : List Task} (hsame : Same x seg seg')
    (htasks : tasks' = tasks.filter (serves x)) :
    Seen x (record s x m seg tasks) (record s' x m seg' tasks') := by
  refine ⟨hsame.shared, htasks, ?_, le_rfl⟩
  simp only [Dispatches.record, List.filter_append, log_filter_self, hs.events, hsame.events]

theorem step_seen {i : Moment × Action} (hs : Seen x s s') (h : step lib s i t) :
    Seen x t s' ∨ ∃ j t', Projects x j i ∧ step lib s' j t' ∧ Seen x t t' := by
  obtain ⟨m, a⟩ := i
  obtain ⟨hclock, ⟨d, rfl, rfl⟩ | ⟨k, signal, task, seg, ⟨rfl, hk, hseg⟩, rfl⟩⟩ := step_cases h
  all_goals have hclock' : s'.now ≤ m.clock 0 := hs.now.trans hclock
  · by_cases hx : d.serviceId = x
    · subst hx
      have hsame := enter_same d m hs.shared
      refine .inr ⟨(m, .dispatch d), record s' d.serviceId m (enter d m s'.shared)
        (s'.tasks ++ [Task.start d m s'.shared]), .dispatch m d rfl, ?_, hs.record hsame ?_⟩
      · simp only [step, next, hclock', ↓reduceIte]
      · have htask : Task.start d m s.shared = Task.start d m s'.shared := by
          simp only [Task.start, hsame.events, hsame.control]
        rw [List.filter_append, hs.tasks, htask]
        simp [serves, Task.start]
    · have hframe := enter_frame d m s.shared (Ne.symm hx)
      exact .inl (hs.stutter hx hclock
        (alike_of_staged (Ne.symm hx) (enter_staged d m s.shared) hframe)
        (by simp [serves, Task.start, hx]))
  · by_cases hx : task.call.serviceId = x
    · subst hx
      obtain ⟨seg', hseg', hsame⟩ := resume_same hs.shared hseg
      obtain ⟨k', hk', hset⟩ := filter_set (p := serves task.call.serviceId) hk
        (by simp [serves])
      rw [← hs.tasks] at hk'
      refine .inr ⟨(m, .resume k' signal), record s' task.call.serviceId m seg'
        (s'.tasks.set k' (task.advance seg')), .resume m k' k signal, ?_, hs.record hsame ?_⟩
      · simp only [step, next, hclock', ↓reduceIte, hk', hseg', Option.map_some]
      · have htask : task.advance seg = task.advance seg' := by
          simp only [Task.advance, hsame.events, hsame.control]
        rw [hset _ (by simp [serves, Task.advance]), hs.tasks, htask]
    · have hframe := resume_frame lib task.call m s.shared hseg (Ne.symm hx)
      exact .inl (hs.stutter hx hclock
        (alike_of_staged (Ne.symm hx) (resume_staged task.call m s.shared lib hseg) hframe)
        (filter_set_of_neg hk (by simp [serves, hx]) (by simp [serves, Task.advance, hx])))

end

/-- A backend service cannot tell what the gateway does for the others: all that happens to it in
a run happens in a run of its own requests alone, step by step at the same moments. -/
theorem service_isolated {lib : StringLibrary} (x : String) {sh : Shared} {now : ℚ}
    {is : List (Moment × Action)} {s : System} (h : Trace (step lib) (init sh now) is s) :
    ∃ js s', Trace (step lib) (init sh now) js s' ∧ List.SublistForall₂ (Projects x) js is ∧
      s'.tasks = s.tasks.filter (serves x) ∧ s'.log = s.log.filter (fun e => e.1 = x) ∧
      s'.shared.breakerFor x = s.shared.breakerFor x ∧
      s'.shared.selector.cycles.get? x = s.shared.selector.cycles.get? x := by
  obtain ⟨js, s', hjs, hsub, hseen⟩ := trace_of_simulation (L := Projects x) (R := Seen x)
    (fun s i t s' hs hi => step_seen hs hi) h
    (a := init sh now) ⟨⟨rfl, rfl⟩, rfl, rfl, le_rfl⟩
  exact ⟨js, s', hjs, hsub, hseen.tasks, hseen.events, hseen.shared.breaker.symm,
    hseen.shared.cycle.symm⟩

def getOrders : Call :=
  { getUsers with
    requestId := "r2"
    route := { usersRoute with id := "orders", name := "orders", pathPattern := "/orders/*",
                               backendServiceId := "orders-svc" } }

def twoServices : List (Moment × Action) :=
  [(instant 0, .dispatch getOrders), (instant 0, .dispatch getUsers),
    (instant 1, .dispatch getOrders),
    (instant 2, .resume 1 (.outcome (.response ⟨200, .empty, []⟩)))]

theorem service_isolated_users : ∃ s js s', Trace (step posix) (init fresh 0) twoServices s ∧
    s.tasks.length = 3 ∧ Trace (step posix) (init fresh 0) js s' ∧
    List.SublistForall₂ (Projects "users-svc") js twoServices ∧
    s'.tasks = s.tasks.filter (serves "users-svc") := by
  obtain ⟨s, hr, hs⟩ := Trace.of_check (next posix) (fun s => s.tasks.length = 3) (init fresh 0)
    twoServices (by decide +kernel)
  obtain ⟨js, s', hjs, hsub, htasks, -⟩ := service_isolated "users-svc" hr
  exact ⟨s, js, s', hr, of_decide_eq_true hs, hjs, hsub, htasks⟩

end Sentinel.ServiceIsolation
