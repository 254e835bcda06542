import Sentinel.Dispatches
import Sentinel.Selection

namespace Sentinel.Segments

open Text Breaker Router Selection Dispatch Dispatches

def dispatchStages : List (Option String) :=
  [none, some "circuit_breaker", some "backend_selection", some "proxy"]

/-- What a stretch of a dispatch can do: it forwards only to what `select` has just returned, after
the breaker has let the attempt pass, and leaves the selector alone when the breaker has not. -/
structure Staged (d : Call) (m : Moment) (sh : Shared) (seg : Segment) : Prop where
  selector : seg.shared.selector = sh.selector ∨ seg.shared.selector = (chosen d m sh).1
  forward : ∀ clock f, .forward clock f ∈ seg.events → (∃ l, seg.control = .forwarding l) ∧
    (∃ clock', (beforeRequest clock' (sh.breakerFor d.serviceId)).2 = .ok () ∧
      seg.events = [.beforeRequest clock' true, .forward clock f]) ∧
    ∃ ref, (chosen d m sh).2 = some ref ∧ f.selected = m.fleet.get ref
  circuitOpen : ∀ r, seg.control = .returned r → r.stageFailed = some "circuit_breaker" →
    seg.shared.selector = sh.selector ∧ ∀ clock f, .forward clock f ∉ seg.events
  result : ∀ r, seg.control = .returned r → r.stageFailed ∈ dispatchStages

section

variable {d : Call} {m : Moment} {sh : Shared} {seg : Segment}

theorem staged_of_no_forward (hsel : seg.shared.selector = sh.selector)
    (hno : ∀ clock f, .forward clock f ∉ seg.events)
    (hresult : ∀ r, seg.control = .returned r → r.stageFailed ∈ dispatchStages) :
    Staged d m sh seg :=
  ⟨.inl hsel, fun clock f hf => absurd hf (hno clock f), fun _ _ _ => ⟨hsel, hno⟩, hresult⟩

theorem settle_returned {result : Except BreakerError Unit} {r r' : PipelineResult}
    (h : settle result (.returned r) = .returned r') : r' = r := by
  cases result with
  | ok => exact (Control.returned.inj h).symm
  | error => exact absurd h (by simp [settle])

variable (lib : StringLibrary) (d m sh) (l : Locals) (o : Outcome)

theorem attempt_staged : Staged d m sh (attempt d m l sh) := by
  obtain ⟨-, h⟩ | ⟨e, -, h⟩ | ⟨-, sel, clock, r, ⟨hsel, hr⟩, h⟩ |
    ⟨hok, sel, ref, ⟨-, hchosen, -⟩, h⟩ := attempt_cases d m l sh
  · rw [h]
    refine staged_of_no_forward rfl (by simp) (fun r hr => ?_)
    cases hr
    simp [exhausted, dispatchStages]
  · rw [h]
    refine staged_of_no_forward rfl (by simp) (fun r hr => ?_)
    cases hr
    simp [circuitOpen, dispatchStages]
  · have hno := recordFailure_no_forward (admitted d m sh sel) d.serviceId clock
    have hstage : r.stageFailed ∈ dispatchStages ∧ r.stageFailed ≠ some "circuit_breaker" := by
      obtain ⟨-, rfl, -⟩ | ⟨-, rfl⟩ := hr
      · simp [noHealthyBackend, dispatchStages]
      · simp [exhausted, dispatchStages]
    rw [h]
    refine ⟨.inr hsel, fun clock f hf => ?_, fun r' hr' hs => ?_, fun r' hr' => ?_⟩
    · obtain hf | hf := List.mem_cons.mp hf
      · cases hf
      · exact absurd hf (hno clock f)
    · obtain rfl := settle_returned hr'
      exact absurd hs hstage.2
    · obtain rfl := settle_returned hr'
      exact hstage.1
  · rw [h]
    refine ⟨.inr ?_, fun clock f hf => ⟨⟨_, rfl⟩, ⟨m.clock 1, hok, ?_⟩, ref, ?_, ?_⟩, by simp,
      by simp⟩
    · rw [hchosen]
      rfl
    all_goals
      obtain ⟨rfl, rfl⟩ : clock = m.clock 3 ∧ f = forwardOf d (m.fleet.get ref)
        (l.deadline.remainingSeconds (m.clock 2)) := by simpa using hf
    · rfl
    · rw [hchosen]
    · rfl

theorem received_staged : Staged d m sh (received lib d m l o sh) := by
  have hno := recordFailure_no_forward sh d.serviceId (m.clock 0)
  obtain ⟨r, -, -, h⟩ | ⟨-, -, l', kind, -, h⟩ | ⟨-, c, hc, h⟩ := received_cases lib d m l sh o
  · rw [h]
    refine staged_of_no_forward rfl (by simp) (fun r' hr => ?_)
    cases hr
    simp [passedOn, dispatchStages]
  · rw [h]
    obtain ⟨e, h⟩ | h | ⟨b, -, -, -, -, h⟩ := failed_cases lib d m l' sh o kind
    all_goals
      rw [h]
      refine staged_of_no_forward rfl (by simpa using hno) (fun r hr => ?_)
      cases hr
    simp [exhausted, dispatchStages]
  · rw [h]
    refine staged_of_no_forward rfl (by simp) (fun r hr => ?_)
    obtain ⟨r', rfl⟩ | ⟨e, rfl⟩ := hc
    · cases hr
      simp [passedOn, dispatchStages]
    · cases hr

theorem enter_staged : Staged d m sh (enter d m sh) := by
  have h := attempt_staged d m (sh.setBreaker d.serviceId (sh.breakerFor d.serviceId))
    { attempt := 0, deadline := .new (m.clock 0) d.retryPolicy.totalDeadlineMs }
  refine ⟨h.selector, fun clock f hf => ?_, h.circuitOpen, h.result⟩
  have hforward := h.forward clock f hf
  rw [breakerFor_setBreaker, if_pos rfl] at hforward
  exact hforward

theorem resume_staged {c : Control} {signal : Signal} (h : resume lib d m sh c signal = some seg) :
    Staged d m sh seg := by
  obtain ⟨l, o, -, -, rfl⟩ | ⟨l, -, -, rfl⟩ | ⟨l, -, rfl⟩ := resume_cases lib d m sh h
  · exact received_staged d m sh lib l o
  · exact attempt_staged d m sh l
  · exact staged_of_no_forward rfl (by simp) (by simp)

end

end Sentinel.Segments
