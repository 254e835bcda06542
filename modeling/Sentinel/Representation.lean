import Sentinel.Callers
import Sentinel.Operations

namespace Sentinel.Representation

open Breaker Runs Operations
open Callers (twoProbes)

/-- How the fields of a breaker hang together. -/
structure Represents (b : CircuitBreaker) : Prop where
  window : b.outcomes.length ≤ b.config.rollingWindowSize
  openedAt : b.openedAt = none ↔ b.state = .closed
  idle : b.state ≠ .halfOpen →
    b.halfOpenInFlight = 0 ∧ b.halfOpenSuccesses = 0 ∧ b.halfOpenFailures = 0
  inFlight : b.state = .halfOpen →
    0 ≤ b.halfOpenInFlight ∧ b.halfOpenInFlight ≤ b.config.halfOpenMaxRequests
  successes : b.state = .halfOpen →
    0 ≤ b.halfOpenSuccesses ∧ b.halfOpenSuccesses < b.config.halfOpenMaxRequests
  failures : b.state = .halfOpen → b.halfOpenFailures = 0

theorem represents_new (name : String) (config : CircuitBreakerConfig) :
    Represents { name, config } := by
  refine ⟨Nat.zero_le _, by simp, fun _ => ⟨rfl, rfl, rfl⟩, ?_, ?_, ?_⟩ <;>
    exact fun hs => CircuitState.noConfusion hs

theorem transitionToClosed_represents (b : CircuitBreaker) :
    Represents (transitionToClosed b) := by
  refine ⟨Nat.zero_le _, by simp [transitionToClosed], fun _ => ⟨rfl, rfl, rfl⟩, ?_, ?_, ?_⟩ <;>
    exact fun hs => CircuitState.noConfusion hs

section

variable {b : CircuitBreaker} (h : Represents b)

include h

theorem Represents.appendOutcome (success : Bool) : Represents (appendOutcome success b) := by
  refine ⟨?_, h.openedAt, h.idle, h.inFlight, h.successes, h.failures⟩
  rw [appendOutcome_outcomes, Recent.length_push]
  exact min_le_left _ _

theorem Represents.transitionToOpen (clock : ℚ) : Represents (transitionToOpen clock b) := by
  refine ⟨h.window, by simp [Breaker.transitionToOpen], fun _ => ⟨rfl, rfl, rfl⟩, ?_, ?_, ?_⟩ <;>
    exact fun hs => CircuitState.noConfusion hs

theorem Represents.transitionToHalfOpen (hmax : 1 ≤ b.config.halfOpenMaxRequests)
    (hs : b.state ≠ .closed) : Represents (transitionToHalfOpen b) := by
  have hopened : b.openedAt ≠ none := mt h.openedAt.mp hs
  refine ⟨h.window, by simp [Breaker.transitionToHalfOpen, hopened],
    fun hne => absurd rfl hne, fun _ => ⟨le_rfl, ?_⟩, fun _ => ⟨le_rfl, ?_⟩, fun _ => rfl⟩
  · exact zero_le_one.trans hmax
  · exact zero_lt_one.trans_le hmax

theorem Represents.readState (hmax : 1 ≤ b.config.halfOpenMaxRequests) (clock : ℚ) :
    Represents (readState clock b) := by
  obtain hr | ⟨_, hs, _, _, hr⟩ := readState_cases clock b
  · rw [hr]
    exact h
  · rw [hr]
    exact h.transitionToHalfOpen hmax (by simp [hs])

theorem Represents.beforeRequest (hmax : 1 ≤ b.config.halfOpenMaxRequests) (clock : ℚ) :
    Represents (beforeRequest clock b).1 := by
  have hread := h.readState hmax clock
  obtain ⟨_, hb, _⟩ | ⟨_, hs, hfree, hb⟩ | ⟨_, _, hb⟩ := beforeRequest_cases clock b
  · rw [hb]
    exact hread
  -- a probe is admitted into a free place
  · rw [hb]
    refine ⟨hread.window, hread.openedAt, fun hne => absurd hs hne, fun _ => ?_,
      hread.successes, hread.failures⟩
    have hin := hread.inFlight hs
    simp only [readState_config]
    omega
  · rw [hb]
    exact hread

theorem Represents.recordSuccess : Represents (recordSuccess b) := by
  have happ := h.appendOutcome true
  obtain ⟨-, hr⟩ | ⟨-, hr⟩ | ⟨⟨hs, hm⟩, hr⟩ := recordSuccess_cases b
  · rw [hr]
    exact happ
  · rw [hr]
    exact transitionToClosed_represents _
  -- one more success is still below the number that closes the circuit
  · have hin := h.inFlight hs
    have hsucc := h.successes hs
    rw [hr]
    refine ⟨happ.window, happ.openedAt, fun hne => absurd hs hne, fun _ => ?_, fun _ => ?_,
      happ.failures⟩
    · simp only [Breaker.appendOutcome]
      omega
    · simp only [Breaker.appendOutcome]
      omega

theorem Represents.recordFailure (clock : ℚ) : Represents (recordFailure clock b).1 := by
  have happ := h.appendOutcome false
  obtain ⟨-, hr⟩ | ⟨-, hr⟩ := recordFailure_cases clock b
  · rw [hr]
    exact happ
  · rw [hr]
    exact happ.transitionToOpen clock

theorem Represents.operate (hmax : 1 ≤ b.config.halfOpenMaxRequests) (clock : ℚ) (op : Op) :
    Represents (operate clock b op) := by
  cases op with
  | readState => exact h.readState hmax clock
  | beforeRequest => exact h.beforeRequest hmax clock
  | recordSuccess => exact h.recordSuccess
  | recordFailure => exact h.recordFailure clock

end

theorem beforeRequest_rejected {clock : ℚ} {b : CircuitBreaker} {e : BreakerError}
    (h : (beforeRequest clock b).2 = .error e) :
    (beforeRequest clock b).1 = b ∨
      ∃ openedAt, b.state = .open ∧ b.openedAt = some openedAt ∧
        openedAt + b.config.openDurationSeconds ≤ clock ∧
        (beforeRequest clock b).1 = transitionToHalfOpen b := by
  obtain ⟨-, hb, -⟩ | ⟨hok, -⟩ | ⟨hok, -⟩ := beforeRequest_cases clock b
  · rw [hb]
    exact readState_cases clock b
  · simp [hok] at h
  · simp [hok] at h

/-- The fields of a breaker hang together after any calls at any times, and a `before_request` that
raises changes nothing but what a read of the state would. -/
theorem breaker_represents (name : String) (config : CircuitBreakerConfig)
    (hmax : 1 ≤ config.halfOpenMaxRequests) (b : CircuitBreaker)
    (h : Reaches step { name, config } b) :
    Represents b ∧ ∀ clock e, (beforeRequest clock b).2 = .error e →
      (beforeRequest clock b).1 = b ∨
        ∃ openedAt, b.state = .open ∧ b.openedAt = some openedAt ∧
          openedAt + b.config.openDurationSeconds ≤ clock ∧
          (beforeRequest clock b).1 = transitionToHalfOpen b := by
  refine ⟨?_, fun clock e he => beforeRequest_rejected he⟩
  have hi : b.config = config ∧ Represents b := by
    refine h.invariant (I := fun b => b.config = config ∧ Represents b) ?_
      ⟨rfl, represents_new name config⟩
    rintro b e c ⟨rfl, hb⟩ rfl
    exact ⟨operate_config e.1 b e.2, hb.operate hmax e.1 e.2⟩
  exact hi.2

theorem represents_half_open : ∃ b, Reaches step { name := "users", config := twoProbes } b ∧
    b.state = .halfOpen ∧ b.halfOpenInFlight = 1 ∧ b.halfOpenSuccesses = 1 ∧
      b.halfOpenFailures = 0 := by
  obtain ⟨b, hr, hc⟩ := Reaches.of_check (fun b e => some (operate e.1 b e.2))
    (fun b => b.state = .halfOpen ∧ b.halfOpenInFlight = 1 ∧ b.halfOpenSuccesses = 1)
    { name := "users", config := twoProbes }
    [(0, .recordFailure), (0, .recordFailure), (2, .beforeRequest), (2, .beforeRequest),
      (3, .recordSuccess)] (by decide +kernel)
  have hreach : Reaches step { name := "users", config := twoProbes } b :=
    hr.mono (fun _ _ _ hs => (Option.some.inj hs).symm)
  obtain ⟨hs, hin, hsucc⟩ := of_decide_eq_true hc
  exact ⟨b, hreach, hs, hin, hsucc,
    (breaker_represents "users" twoProbes (by decide) b hreach).1.failures hs⟩

end Sentinel.Representation
