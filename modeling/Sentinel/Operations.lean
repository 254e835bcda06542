import Sentinel.Breaker
import Sentinel.Recent
import Sentinel.Runs

namespace Sentinel.Operations

open Breaker Runs Recent

inductive Op
  | readState
  | beforeRequest
  | recordSuccess
  | recordFailure
  deriving DecidableEq

def operate (clock : ℚ) (b : CircuitBreaker) : Op → CircuitBreaker
  | .readState => readState clock b
  | .beforeRequest => (beforeRequest clock b).1
  | .recordSuccess => recordSuccess b
  | .recordFailure => (recordFailure clock b).1

def step (b : CircuitBreaker) (e : ℚ × Op) (c : CircuitBreaker) : Prop := c = operate e.1 b e.2

def run (b : CircuitBreaker) (es : List (ℚ × Op)) : CircuitBreaker :=
  es.foldl (fun b e => operate e.1 b e.2) b

def Op.outcome? : Op → Option Bool
  | .readState | .beforeRequest => none
  | .recordSuccess => some true
  | .recordFailure => some false

@[simp] theorem operate_config (clock : ℚ) (b : CircuitBreaker) (op : Op) :
    (operate clock b op).config = b.config := by
  cases op <;> simp [operate]

theorem operate_closed {b : CircuitBreaker} {op : Op} (hs : b.state = .closed)
    (hop : op ≠ .recordFailure) (clock : ℚ) : (operate clock b op).state = .closed := by
  have hr : readState clock b = b := readState_of_ne_open (by simp [hs])
  cases op with
  | readState => simp [operate, hr, hs]
  | beforeRequest => simp [operate, beforeRequest, hr, hs]
  | recordSuccess => simp [operate, recordSuccess, appendOutcome, hs]
  | recordFailure => exact absurd rfl hop

/-- The call closes the circuit, which empties the window. -/
def Closes (clock : ℚ) (b : CircuitBreaker) (op : Op) : Prop :=
  b.state = .halfOpen ∧ (operate clock b op).state = .closed

instance (clock : ℚ) (b : CircuitBreaker) (op : Op) : Decidable (Closes clock b op) :=
  inferInstanceAs (Decidable (_ ∧ _))

theorem appendOutcome_outcomes (success : Bool) (b : CircuitBreaker) :
    (appendOutcome success b).outcomes = push b.config.rollingWindowSize b.outcomes success := rfl

theorem recordSuccess_outcomes (clock : ℚ) (b : CircuitBreaker) :
    (recordSuccess b).outcomes =
      if Closes clock b .recordSuccess then [] else (appendOutcome true b).outcomes := by
  obtain ⟨hs, hr⟩ | ⟨⟨hs, -⟩, hr⟩ | ⟨⟨hs, -⟩, hr⟩ := recordSuccess_cases b
  · simp [Closes, hs, hr]
  · simp [Closes, operate, hs, hr, transitionToClosed]
  · simp [Closes, operate, hs, hr, appendOutcome]

theorem recordFailure_outcomes (clock : ℚ) (b : CircuitBreaker) :
    (recordFailure clock b).1.outcomes = (appendOutcome false b).outcomes := by
  obtain ⟨-, hr⟩ | ⟨-, hr⟩ := recordFailure_cases clock b
  · rw [hr]
  · rw [hr]
    rfl

theorem not_closes {clock : ℚ} {b : CircuitBreaker} {op : Op} (hop : op ≠ .recordSuccess) :
    ¬Closes clock b op := by
  rintro ⟨hs, hc⟩
  have hr : readState clock b = b := readState_of_ne_open (by simp [hs])
  cases op with
  | readState => simp [operate, hr, hs] at hc
  | beforeRequest =>
    by_cases hf : b.config.halfOpenMaxRequests ≤ b.halfOpenInFlight <;>
      simp [operate, beforeRequest, hr, hs, hf] at hc
  | recordSuccess => exact hop rfl
  | recordFailure => simp [operate, recordFailure, appendOutcome, hs, transitionToOpen] at hc

theorem closes_of_closed {clock : ℚ} {b : CircuitBreaker} {op : Op} (hs : b.state ≠ .closed)
    (hc : (operate clock b op).state = .closed) : Closes clock b op := by
  refine ⟨?_, hc⟩
  cases ho : b.state with
  | closed => exact absurd ho hs
  | halfOpen => rfl
  | «open» =>
    exfalso
    have hr : (readState clock b).state ≠ .closed := by
      obtain h | ⟨_, _, _, _, h⟩ := readState_cases clock b
      · simp [h, ho]
      · simp [h, transitionToHalfOpen]
    cases op with
    | readState => exact hr hc
    | beforeRequest =>
      obtain ⟨_, h, _⟩ | ⟨_, _, _, h⟩ | ⟨_, h', _⟩ := beforeRequest_cases clock b
      · exact hr (by rwa [operate, h] at hc)
      · exact hr (by rwa [operate, h] at hc)
      · exact hr h'
    | recordSuccess => simp [operate, recordSuccess, appendOutcome, ho] at hc
    | recordFailure => simp [operate, recordFailure, appendOutcome, ho] at hc

theorem readState_outcomes (clock : ℚ) (b : CircuitBreaker) :
    (readState clock b).outcomes = b.outcomes := by
  obtain h | ⟨_, _, _, _, h⟩ := readState_cases clock b
  · rw [h]
  · rw [h]
    rfl

theorem beforeRequest_outcomes (clock : ℚ) (b : CircuitBreaker) :
    (beforeRequest clock b).1.outcomes = b.outcomes := by
  obtain ⟨_, h, _⟩ | ⟨_, _, _, h⟩ | ⟨_, _, h⟩ := beforeRequest_cases clock b
  all_goals
    rw [h]
    exact readState_outcomes clock b

theorem operate_outcomes (clock : ℚ) (b : CircuitBreaker) (op : Op) :
    (operate clock b op).outcomes =
      if Closes clock b op then []
      else op.outcome?.toList.foldl (push b.config.rollingWindowSize) b.outcomes := by
  cases op with
  | readState =>
    rw [if_neg (not_closes (by simp))]
    exact readState_outcomes clock b
  | beforeRequest =>
    rw [if_neg (not_closes (by simp))]
    exact beforeRequest_outcomes clock b
  | recordSuccess => exact recordSuccess_outcomes clock b
  | recordFailure =>
    rw [if_neg (not_closes (by simp))]
    exact recordFailure_outcomes clock b

end Sentinel.Operations
