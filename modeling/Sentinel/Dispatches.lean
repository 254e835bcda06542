import Sentinel.Dispatch
import Sentinel.Runs

namespace Sentinel.Dispatches

open Runs Text Breaker Dispatch

/-- All the dispatches of a gateway. `log` is what they did, each event with the backend service
it is about, and `now` is the last clock reading. -/
structure System where
  shared : Shared
  now : ℚ
  tasks : List Task := []
  log : List (String × Event) := []

inductive Action
  | dispatch (d : Call)
  | resume (i : ℕ) (signal : Signal)

def record (s : System) (serviceId : String) (m : Moment) (seg : Segment) (tasks : List Task) :
    System :=
  { shared := seg.shared
    now := m.clock 3
    tasks
    log := s.log ++ seg.events.map (fun e => (serviceId, e)) }

/-- The code between two awaits is one step; its clock readings follow all earlier ones. -/
def next (lib : StringLibrary) (s : System) (i : Moment × Action) : Option System :=
  if s.now ≤ i.1.clock 0 then
    match i.2 with
    | .dispatch d => some (record s d.serviceId i.1 (enter d i.1 s.shared)
        (s.tasks ++ [Task.start d i.1 s.shared]))
    | .resume k signal =>
      match s.tasks[k]? with
      | some t => (resume lib t.call i.1 s.shared t.control signal).map
          (fun seg => record s t.call.serviceId i.1 seg (s.tasks.set k (t.advance seg)))
      | none => none
  else none

def step (lib : StringLibrary) (s : System) (i : Moment × Action) (t : System) : Prop :=
  next lib s i = some t

def init (sh : Shared) (now : ℚ) : System := { shared := sh, now }

theorem step_cases {lib : StringLibrary} {s t : System} {m : Moment} {a : Action}
    (h : step lib s (m, a) t) : s.now ≤ m.clock 0 ∧
      ((∃ d, a = .dispatch d ∧ t = record s d.serviceId m (enter d m s.shared)
        (s.tasks ++ [Task.start d m s.shared])) ∨
      (∃ k signal task seg, (a = .resume k signal ∧ s.tasks[k]? = some task ∧
          resume lib task.call m s.shared task.control signal = some seg) ∧
        t = record s task.call.serviceId m seg (s.tasks.set k (task.advance seg)))) := by
  by_cases hclock : s.now ≤ m.clock 0
  case neg => simp [step, next, hclock] at h
  refine ⟨hclock, ?_⟩
  cases a with
  | dispatch d =>
    simp only [step, next, hclock, ↓reduceIte, Option.some.injEq] at h
    exact .inl ⟨d, rfl, h.symm⟩
  | resume k signal =>
    cases hk : s.tasks[k]? with
    | none => simp [step, next, hclock, hk] at h
    | some task =>
      simp only [step, next, hclock, ↓reduceIte, hk, Option.map_eq_some_iff] at h
      obtain ⟨seg, hseg, rfl⟩ := h
      exact .inr ⟨k, signal, task, seg, ⟨rfl, hk, hseg⟩, rfl⟩

def eventsFor (s : System) (serviceId : String) : List Event :=
  s.log.filterMap (fun e => if e.1 = serviceId then some e.2 else none)

theorem eventsFor_record_self (s : System) (serviceId : String) (m : Moment) (seg : Segment)
    (tasks : List Task) :
    eventsFor (record s serviceId m seg tasks) serviceId = eventsFor s serviceId ++ seg.events := by
  simp [eventsFor, record, List.filterMap_map]

theorem eventsFor_record_other (s : System) {serviceId other : String} (h : serviceId ≠ other)
    (m : Moment) (seg : Segment) (tasks : List Task) :
    eventsFor (record s serviceId m seg tasks) other = eventsFor s other := by
  simp [eventsFor, record, List.filterMap_map, h]

@[simp] theorem breakerFor_setBreaker (sh : Shared) (serviceId other : String)
    (b : CircuitBreaker) :
    (sh.setBreaker serviceId b).breakerFor other =
      if other = serviceId then b else sh.breakerFor other := by
  simp only [Shared.breakerFor, Shared.setBreaker, Dict.get?_set]
  by_cases h : other = serviceId <;> simp [h]

@[simp] theorem breakerFor_recordFailure (sh : Shared) (serviceId other : String) (clock : ℚ) :
    (sh.recordFailure serviceId clock).1.breakerFor other =
      if other = serviceId then (recordFailure clock (sh.breakerFor serviceId)).1
      else sh.breakerFor other :=
  breakerFor_setBreaker sh serviceId other _

@[simp] theorem breakerFor_admitted (d : Call) (m : Moment) (sh : Shared)
    (sel : Router.WeightedRoundRobinSelector) (other : String) :
    (admitted d m sh sel).breakerFor other =
      if other = d.serviceId then (beforeRequest (m.clock 1) (sh.breakerFor d.serviceId)).1
      else sh.breakerFor other :=
  breakerFor_setBreaker sh d.serviceId other _

section

variable (lib : StringLibrary) (d : Call) (m : Moment) (l : Locals) (sh : Shared) {other : String}
  (h : other ≠ d.serviceId)

include h

theorem attempt_frame : (attempt d m l sh).shared.breakerFor other = sh.breakerFor other := by
  obtain ⟨-, ha⟩ | ⟨e, -, ha⟩ | ⟨-, sel, clock, r, -, ha⟩ | ⟨-, sel, ref, -, ha⟩ :=
    attempt_cases d m l sh
  all_goals simp [ha, h]

theorem failed_frame (o : Outcome) (kind : Retry.FailureKind) :
    (failed lib d m l o kind sh).shared.breakerFor other = sh.breakerFor other := by
  obtain ⟨e, ha⟩ | ha | ⟨b, -, -, -, -, ha⟩ := failed_cases lib d m l sh o kind
  all_goals simp [ha, h]

theorem received_frame (o : Outcome) :
    (received lib d m l o sh).shared.breakerFor other = sh.breakerFor other := by
  obtain ⟨r, -, -, ha⟩ | ⟨-, -, l', kind, -, ha⟩ | ⟨-, c, -, ha⟩ := received_cases lib d m l sh o
  · simp [ha, h]
  · rw [ha]
    exact failed_frame lib d m l' sh h o kind
  · rw [ha]

end

theorem enter_frame (d : Call) (m : Moment) (sh : Shared) {other : String}
    (h : other ≠ d.serviceId) :
    (enter d m sh).shared.breakerFor other = sh.breakerFor other := by
  rw [enter, attempt_frame d m _ _ h, breakerFor_setBreaker, if_neg h]

theorem resume_frame (lib : StringLibrary) (d : Call) (m : Moment) (sh : Shared) {c : Control}
    {signal : Signal} {seg : Segment} (hseg : resume lib d m sh c signal = some seg)
    {other : String} (h : other ≠ d.serviceId) :
    seg.shared.breakerFor other = sh.breakerFor other := by
  obtain ⟨l, o, -, -, rfl⟩ | ⟨l, -, -, rfl⟩ | ⟨l, -, rfl⟩ := resume_cases lib d m sh hseg
  · exact received_frame lib d m l sh h o
  · exact attempt_frame d m l sh h
  · rfl

end Sentinel.Dispatches
