import Sentinel.Dispatches
import Sentinel.Tally

namespace Sentinel.Wedge

open Runs Text Breaker Dispatch Dispatches Tally

/-- Every place for a probe is taken, and nobody is left who could give one back. -/
structure Wedged (x : String) (s : System) : Prop where
  halfOpen : (s.shared.breakerFor x).state = .halfOpen
  full : (s.shared.breakerFor x).config.halfOpenMaxRequests ≤
    (s.shared.breakerFor x).halfOpenInFlight
  nobody : ∀ t ∈ s.tasks, t.call.serviceId = x → ∀ l, t.control ≠ .forwarding l

def isForward : Event → Bool
  | .forward _ _ => true
  | _ => false

def forwardsTo (s : System) (x : String) : ℕ := (eventsFor s x).countP isForward

structure Barred (d : Call) (sh : Shared) (seg : Segment) : Prop where
  breaker : seg.shared.breakerFor d.serviceId = sh.breakerFor d.serviceId
  events : seg.events.countP isForward = 0
  control : ∀ l, seg.control ≠ .forwarding l

section

variable {sh : Shared} {d : Call}

theorem beforeRequest_full {b : CircuitBreaker} (hs : b.state = .halfOpen)
    (hfull : b.config.halfOpenMaxRequests ≤ b.halfOpenInFlight) (clock : ℚ) :
    beforeRequest clock b = (b, .error (.circuitOpen b.name)) := by
  have hr : readState clock b = b := readState_of_ne_open (by simp [hs])
  simp [beforeRequest, hr, hs, hfull]

theorem attempt_barred (hs : (sh.breakerFor d.serviceId).state = .halfOpen)
    (hfull : (sh.breakerFor d.serviceId).config.halfOpenMaxRequests ≤
      (sh.breakerFor d.serviceId).halfOpenInFlight) (m : Moment) (l : Locals) :
    Barred d sh (attempt d m l sh) ∧ ((l.attempt : ℤ) < d.retryPolicy.maxAttempts →
      (attempt d m l sh).control = .returned (circuitOpen d)) := by
  have hb := beforeRequest_full hs hfull (m.clock 1)
  obtain ⟨hmax, ha⟩ | ⟨e, -, ha⟩ | ⟨hok, -⟩ | ⟨hok, -⟩ := attempt_cases d m l sh
  · rw [ha]
    exact ⟨⟨rfl, rfl, by simp⟩, fun hlt => absurd hlt (not_lt.mpr hmax)⟩
  · rw [ha]
    exact ⟨⟨by simp [hb], rfl, by simp⟩, fun _ => rfl⟩
  · simp [hb] at hok
  · simp [hb] at hok

end

variable {lib : StringLibrary} {x : String} {s t : System}

theorem enter_barred {d : Call} (h : Wedged d.serviceId s) (m : Moment) :
    Barred d s.shared (enter d m s.shared) ∧ (1 ≤ d.retryPolicy.maxAttempts →
      (enter d m s.shared).control = .returned (circuitOpen d)) := by
  let sh := s.shared.setBreaker d.serviceId (s.shared.breakerFor d.serviceId)
  have hsh : sh.breakerFor d.serviceId = s.shared.breakerFor d.serviceId := by simp [sh]
  have hhalf : (sh.breakerFor d.serviceId).state = .halfOpen := hsh ▸ h.halfOpen
  obtain ⟨hbarred, hcontrol⟩ := attempt_barred hhalf (hsh ▸ h.full) m
    { attempt := 0, deadline := .new (m.clock 0) d.retryPolicy.totalDeadlineMs }
  refine ⟨⟨hbarred.breaker.trans hsh, hbarred.events, hbarred.control⟩, fun hmax => ?_⟩
  exact hcontrol (by simp only [Nat.cast_zero]; omega)

theorem resume_barred {task : Task} (h : Wedged task.call.serviceId s) (hmem : task ∈ s.tasks)
    {m : Moment} {signal : Signal} {seg : Segment}
    (hseg : resume lib task.call m s.shared task.control signal = some seg) :
    Barred task.call s.shared seg ∧ ∀ r, task.control ≠ .returned r := by
  obtain ⟨l, o, hc, -, -⟩ | ⟨l, hc, -, rfl⟩ | ⟨l, ⟨hc, -⟩, rfl⟩ :=
    resume_cases lib task.call m s.shared hseg
  · exact absurd hc (h.nobody task hmem rfl l)
  · exact ⟨(attempt_barred h.halfOpen h.full m l).1, by simp [hc]⟩
  · exact ⟨⟨rfl, rfl, by simp⟩, by simp [hc]⟩

/-- What stays as it was when the service was wedged, and how later requests to it end. -/
structure Stays (x : String) (s t : System) : Prop where
  wedged : Wedged x t
  breaker : t.shared.breakerFor x = s.shared.breakerFor x
  forwards : forwardsTo t x = forwardsTo s x
  length : s.tasks.length ≤ t.tasks.length
  turnedAway : ∀ (k : ℕ) task, s.tasks.length ≤ k → t.tasks[k]? = some task →
    task.call.serviceId = x → 1 ≤ task.call.retryPolicy.maxAttempts →
      task.control = .returned (circuitOpen task.call)

theorem Stays.of_other (h : Stays x s t) {y : String} (hy : x ≠ y) {m : Moment} {seg : Segment}
    {tasks : List Task} (hframe : seg.shared.breakerFor x = t.shared.breakerFor x)
    (hlen : t.tasks.length ≤ tasks.length)
    (htasks : ∀ (k : ℕ) task, tasks[k]? = some task → task.call.serviceId = x →
      t.tasks[k]? = some task) : Stays x s (record t y m seg tasks) := by
  have hbreaker : (record t y m seg tasks).shared.breakerFor x = t.shared.breakerFor x := hframe
  refine ⟨⟨hbreaker ▸ h.wedged.halfOpen, hbreaker ▸ h.wedged.full, ?_⟩, hbreaker.trans h.breaker,
    ?_, h.length.trans hlen,
    fun k task hk hget hx => h.turnedAway k task hk (htasks k task hget hx) hx⟩
  · intro task hmem hx
    obtain ⟨k, hk⟩ := List.mem_iff_getElem?.mp hmem
    exact h.wedged.nobody task (List.mem_of_getElem? (htasks k task hk hx)) hx
  · rw [forwardsTo, eventsFor_record_other t (Ne.symm hy) m seg tasks]
    exact h.forwards

theorem Stays.of_barred {d : Call} (h : Stays d.serviceId s t) {m : Moment} {seg : Segment}
    {tasks : List Task} (hseg : Barred d t.shared seg) (hlen : t.tasks.length ≤ tasks.length)
    (htasks : ∀ (k : ℕ) task, tasks[k]? = some task → t.tasks[k]? = some task ∨
      task.control = seg.control ∧ (s.tasks.length ≤ k → task.call.serviceId = d.serviceId →
        1 ≤ task.call.retryPolicy.maxAttempts →
          task.control = .returned (circuitOpen task.call))) :
    Stays d.serviceId s (record t d.serviceId m seg tasks) := by
  have hbreaker : (record t d.serviceId m seg tasks).shared.breakerFor d.serviceId =
      t.shared.breakerFor d.serviceId := hseg.breaker
  refine ⟨⟨hbreaker ▸ h.wedged.halfOpen, hbreaker ▸ h.wedged.full, ?_⟩, hbreaker.trans h.breaker,
    ?_, h.length.trans hlen, ?_⟩
  · intro task hmem hx
    obtain ⟨k, hk⟩ := List.mem_iff_getElem?.mp hmem
    obtain hold | ⟨hnew, -⟩ := htasks k task hk
    · exact h.wedged.nobody task (List.mem_of_getElem? hold) hx
    · rw [hnew]
      exact hseg.control
  · rw [forwardsTo, eventsFor_record_self, List.countP_append, hseg.events, Nat.add_zero]
    exact h.forwards
  · intro k task hk hget hx hmax
    obtain hold | ⟨-, hnew⟩ := htasks k task hget
    · exact h.turnedAway k task hk hold hx hmax
    · exact hnew hk hx hmax

theorem step_stays (t : System) (i : Moment × Action) (u : System) (h : Stays x s t)
    (hstep : step lib t i u) : Stays x s u := by
  obtain ⟨m, a⟩ := i
  obtain ⟨-, ⟨d, rfl, rfl⟩ | ⟨k, signal, task, seg, ⟨rfl, hk, hseg⟩, rfl⟩⟩ := step_cases hstep
  · by_cases hx : x = d.serviceId
    · subst hx
      obtain ⟨hbarred, hcontrol⟩ := enter_barred h.wedged m
      refine h.of_barred hbarred (by simp) (fun k task hget => ?_)
      obtain hold | rfl := getElem?_concat_cases hget
      · exact .inl hold
      · exact .inr ⟨rfl, fun _ _ hmax => hcontrol hmax⟩
    · refine h.of_other hx (enter_frame d m t.shared hx) (by simp) (fun k task hget hserves => ?_)
      obtain hold | rfl := getElem?_concat_cases hget
      · exact hold
      · exact absurd hserves.symm hx
  · by_cases hx : x = task.call.serviceId
    · subst hx
      obtain ⟨hbarred, hnot⟩ := resume_barred h.wedged (List.mem_of_getElem? hk) hseg
      refine h.of_barred hbarred (by simp) (fun j task' hget => ?_)
      obtain hold | ⟨rfl, rfl⟩ := getElem?_set_cases hget
      · exact .inl hold
      -- a request turned away has returned and is not resumed
      · exact .inr ⟨rfl, fun hlen _ hmax => absurd (h.turnedAway j task hlen hk rfl hmax) (hnot _)⟩
    · have hframe := resume_frame lib task.call m t.shared hseg hx
      refine h.of_other hx hframe (by simp) (fun j task' hget hserves => ?_)
      obtain hold | ⟨rfl, rfl⟩ := getElem?_set_cases hget
      · exact hold
      · exact absurd hserves.symm hx

/-- Once lost probes have taken every place, the service is cut off for good: no clock, no later
request and no outcome of another service brings it back. -/
theorem wedge_is_permanent {lib : StringLibrary} {x : String} {s t : System} (hs : Wedged x s)
    (h : Reaches (step lib) s t) :
    t.shared.breakerFor x = s.shared.breakerFor x ∧ forwardsTo t x = forwardsTo s x ∧
    ∀ (k : ℕ) task, s.tasks.length ≤ k → t.tasks[k]? = some task → task.call.serviceId = x →
      1 ≤ task.call.retryPolicy.maxAttempts →
        task.control = .returned (circuitOpen task.call) := by
  have hstays := h.invariant step_stays ⟨hs, rfl, rfl, le_rfl, fun k task hk hget =>
    absurd hget (by simp [List.getElem?_eq_none hk])⟩
  exact ⟨hstays.breaker, hstays.forwards, hstays.turnedAway⟩

def answered (time : ℚ) (i : ℕ) (o : Outcome) : List (Moment × Action) :=
  [(instant time, .dispatch { getUsers with retryPolicy := { maxAttempts := 1 } }),
    (instant time, .resume i (.outcome o))]

/-- Twenty refused connections, and after ten seconds three probes whose replies break off. -/
def brokenProbes : List (Moment × Action) :=
  (List.range 20).flatMap (fun i => answered 0 i (.raised .connectError)) ++
    (List.range 3).flatMap (fun i => answered 10 (20 + i) (.raised .readError))

theorem wedge_is_permanent_users : ∃ s, Reaches (step posix) (init fresh 0) s ∧
    Wedged "users-svc" s ∧ ∀ t, Reaches (step posix) s t → forwardsTo t "users-svc" = 23 := by
  obtain ⟨s, hr, hs⟩ := Reaches.of_check (next posix)
    (fun s => (s.shared.breakerFor "users-svc").state = .halfOpen ∧
      (s.shared.breakerFor "users-svc").config.halfOpenMaxRequests ≤
        (s.shared.breakerFor "users-svc").halfOpenInFlight ∧
      s.tasks.all (fun t => !(t.control matches .forwarding _)) ∧
      forwardsTo s "users-svc" = 23) (init fresh 0) brokenProbes (by decide +kernel)
  obtain ⟨hhalf, hfull, hnobody, hcount⟩ := of_decide_eq_true hs
  have hwedged : Wedged "users-svc" s := by
    refine ⟨hhalf, hfull, fun t ht _ l hl => ?_⟩
    have hnot := List.all_eq_true.mp hnobody t ht
    simp [hl] at hnot
  exact ⟨s, hr, hwedged, fun t ht => (wedge_is_permanent hwedged ht).2.1.trans hcount⟩

end Sentinel.Wedge
