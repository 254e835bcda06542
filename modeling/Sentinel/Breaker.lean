import Mathlib.Data.List.DropRight
import Mathlib.Data.Rat.Floor
import Mathlib.Tactic.Linarith

namespace Sentinel.Breaker

inductive CircuitState
  | closed
  | open
  | halfOpen
  deriving DecidableEq, Repr

structure CircuitBreakerConfig where
  failureThreshold : ℚ := 1 / 2
  minimumRequests : ℤ := 20
  openDurationSeconds : ℚ := 10
  halfOpenMaxRequests : ℤ := 3
  rollingWindowSize : ℕ := 100
  deriving DecidableEq, Repr

/-- What a breaker method raises: `CircuitOpenError` carries the breaker's name,
`zeroDivision` is the failure rate of an empty window. -/
inductive BreakerError
  | circuitOpen (name : String)
  | zeroDivision
  deriving DecidableEq, Repr

/-- The fields of the breaker object. An outcome is kept as its `success` flag,
oldest first; the time stored beside it is never read. -/
structure CircuitBreaker where
  name : String
  config : CircuitBreakerConfig := {}
  state : CircuitState := .closed
  outcomes : List Bool := []
  openedAt : Option ℚ := none
  halfOpenInFlight : ℤ := 0
  halfOpenSuccesses : ℤ := 0
  halfOpenFailures : ℤ := 0
  deriving DecidableEq, Repr

def transitionToOpen (clock : ℚ) (b : CircuitBreaker) : CircuitBreaker :=
  { b with
    state := .open
    openedAt := some clock
    halfOpenInFlight := 0
    halfOpenSuccesses := 0
    halfOpenFailures := 0 }

def transitionToHalfOpen (b : CircuitBreaker) : CircuitBreaker :=
  { b with
    state := .halfOpen
    halfOpenInFlight := 0
    halfOpenSuccesses := 0
    halfOpenFailures := 0 }

def transitionToClosed (b : CircuitBreaker) : CircuitBreaker :=
  { b with
    state := .closed
    openedAt := none
    outcomes := []
    halfOpenInFlight := 0
    halfOpenSuccesses := 0
    halfOpenFailures := 0 }

/-- The breaker after its `state` property is read at time `clock`; the value
read is the new `state` field. -/
def readState (clock : ℚ) (b : CircuitBreaker) : CircuitBreaker :=
  match b.state, b.openedAt with
  | .open, some openedAt =>
    let elapsed := clock - openedAt
    if b.config.openDurationSeconds ≤ elapsed then transitionToHalfOpen b else b
  | _, _ => b

def beforeRequest (clock : ℚ) (b : CircuitBreaker) : CircuitBreaker × Except BreakerError Unit :=
  let b := readState clock b
  match b.state with
  | .open => (b, .error (.circuitOpen b.name))
  | .halfOpen =>
    if b.config.halfOpenMaxRequests ≤ b.halfOpenInFlight then
      (b, .error (.circuitOpen b.name))
    else ({ b with halfOpenInFlight := b.halfOpenInFlight + 1 }, .ok ())
  | .closed => (b, .ok ())

/-- `append` on a `deque` of bounded length drops the oldest outcome when full. -/
def appendOutcome (success : Bool) (b : CircuitBreaker) : CircuitBreaker :=
  { b with outcomes := (b.outcomes ++ [success]).rtake b.config.rollingWindowSize }

def recordSuccess (b : CircuitBreaker) : CircuitBreaker :=
  let b := appendOutcome true b
  match b.state with
  | .halfOpen =>
    let b := { b with
      halfOpenInFlight := max 0 (b.halfOpenInFlight - 1)
      halfOpenSuccesses := b.halfOpenSuccesses + 1 }
    if b.config.halfOpenMaxRequests ≤ b.halfOpenSuccesses then transitionToClosed b else b
  | _ => b

def maybeOpen (clock : ℚ) (b : CircuitBreaker) : CircuitBreaker × Except BreakerError Unit :=
  if (b.outcomes.length : ℤ) < b.config.minimumRequests then (b, .ok ())
  else if b.outcomes.length = 0 then (b, .error .zeroDivision)
  else
    let failures := b.outcomes.countP (fun success => !success)
    let failureRate : ℚ := failures / b.outcomes.length
    if b.config.failureThreshold ≤ failureRate then (transitionToOpen clock b, .ok ())
    else (b, .ok ())

def recordFailure (clock : ℚ) (b : CircuitBreaker) : CircuitBreaker × Except BreakerError Unit :=
  let b := appendOutcome false b
  match b.state with
  | .halfOpen =>
    let b := { b with
      halfOpenInFlight := max 0 (b.halfOpenInFlight - 1)
      halfOpenFailures := b.halfOpenFailures + 1 }
    (transitionToOpen clock b, .ok ())
  | .closed => maybeOpen clock b
  | .open => (b, .ok ())

def failures (outcomes : List Bool) : ℕ := outcomes.countP (fun success => !success)

def Trips (config : CircuitBreakerConfig) (outcomes : List Bool) : Prop :=
  config.minimumRequests ≤ outcomes.length ∧ 0 < outcomes.length ∧
    config.failureThreshold * outcomes.length ≤ failures outcomes

instance (config : CircuitBreakerConfig) (outcomes : List Bool) :
    Decidable (Trips config outcomes) := inferInstanceAs (Decidable (_ ∧ _ ∧ _))

theorem readState_cases (clock : ℚ) (b : CircuitBreaker) :
    readState clock b = b ∨
      (∃ openedAt, b.state = .open ∧ b.openedAt = some openedAt ∧
        openedAt + b.config.openDurationSeconds ≤ clock ∧
        readState clock b = transitionToHalfOpen b) := by
  unfold readState
  split
  · rename_i openedAt hs ho
    by_cases h : b.config.openDurationSeconds ≤ clock - openedAt
    · exact .inr ⟨openedAt, hs, ho, by linarith, by simp [h]⟩
    · exact .inl (by simp [h])
  · exact .inl rfl

theorem readState_of_ne_open {clock : ℚ} {b : CircuitBreaker} (h : b.state ≠ .open) :
    readState clock b = b := by
  obtain h' | ⟨_, hs, _⟩ := readState_cases clock b
  · exact h'
  · exact absurd hs h

@[simp] theorem readState_config (clock : ℚ) (b : CircuitBreaker) :
    (readState clock b).config = b.config := by
  obtain h | ⟨_, _, _, _, h⟩ := readState_cases clock b
  · rw [h]
  · rw [h]
    rfl

theorem beforeRequest_cases (clock : ℚ) (b : CircuitBreaker) :
    ((∃ e, (beforeRequest clock b).2 = .error e) ∧
      (beforeRequest clock b).1 = readState clock b ∧
      ((readState clock b).state = .open ∨ (readState clock b).state = .halfOpen ∧
        b.config.halfOpenMaxRequests ≤ (readState clock b).halfOpenInFlight)) ∨
    ((beforeRequest clock b).2 = .ok () ∧ (readState clock b).state = .halfOpen ∧
      (readState clock b).halfOpenInFlight < b.config.halfOpenMaxRequests ∧
      (beforeRequest clock b).1 = { readState clock b with
        halfOpenInFlight := (readState clock b).halfOpenInFlight + 1 }) ∨
    ((beforeRequest clock b).2 = .ok () ∧ (readState clock b).state = .closed ∧
      (beforeRequest clock b).1 = readState clock b) := by
  have hc := readState_config clock b
  unfold beforeRequest
  generalize readState clock b = c at hc ⊢
  cases hs : c.state with
  | closed => simp [hs]
  | «open» => simp [hs]
  | halfOpen =>
    by_cases hf : c.config.halfOpenMaxRequests ≤ c.halfOpenInFlight
    · simp [hs, hf, ← hc]
    · simp [hs, hf, ← hc, lt_of_not_ge hf]

@[simp] theorem beforeRequest_config (clock : ℚ) (b : CircuitBreaker) :
    (beforeRequest clock b).1.config = b.config := by
  obtain ⟨_, h, _⟩ | ⟨_, _, _, h⟩ | ⟨_, _, h⟩ := beforeRequest_cases clock b <;> simp [h]

theorem beforeRequest_state_of_ok {clock : ℚ} {b : CircuitBreaker}
    (h : (beforeRequest clock b).2 = .ok ()) : (beforeRequest clock b).1.state ≠ .open := by
  obtain ⟨⟨e, he⟩, -, -⟩ | ⟨-, hs, -, hb⟩ | ⟨-, hs, hb⟩ := beforeRequest_cases clock b
  · simp [he] at h
  · simp [hb, hs]
  · simp [hb, hs]

theorem beforeRequest_due {clock openedAt : ℚ} {b : CircuitBreaker} (hs : b.state = .open)
    (ho : b.openedAt = some openedAt) (hmax : 1 ≤ b.config.halfOpenMaxRequests)
    (hc : openedAt + b.config.openDurationSeconds ≤ clock) :
    (beforeRequest clock b).2 = .ok () := by
  have hr : readState clock b = transitionToHalfOpen b := by
    simp [readState, hs, ho, le_sub_iff_add_le', hc]
  have hnot : ¬b.config.halfOpenMaxRequests ≤ 0 := by omega
  simp [beforeRequest, hr, transitionToHalfOpen, hnot]

theorem recordSuccess_of_ne_halfOpen {b : CircuitBreaker} (h : b.state ≠ .halfOpen) :
    recordSuccess b = appendOutcome true b := by
  cases hs : b.state with
  | halfOpen => exact absurd hs h
  | closed | «open» => simp [recordSuccess, appendOutcome, hs]

theorem recordSuccess_cases (b : CircuitBreaker) :
    (b.state ≠ .halfOpen ∧ recordSuccess b = appendOutcome true b) ∨
    ((b.state = .halfOpen ∧ b.config.halfOpenMaxRequests ≤ b.halfOpenSuccesses + 1) ∧
      recordSuccess b = transitionToClosed (appendOutcome true b)) ∨
    ((b.state = .halfOpen ∧ b.halfOpenSuccesses + 1 < b.config.halfOpenMaxRequests) ∧
      recordSuccess b = { appendOutcome true b with
        halfOpenInFlight := max 0 (b.halfOpenInFlight - 1)
        halfOpenSuccesses := b.halfOpenSuccesses + 1 }) := by
  by_cases hs : b.state = .halfOpen
  · by_cases hm : b.config.halfOpenMaxRequests ≤ b.halfOpenSuccesses + 1
    · refine .inr (.inl ⟨⟨hs, hm⟩, ?_⟩)
      simp [recordSuccess, appendOutcome, transitionToClosed, hs, hm]
    · refine .inr (.inr ⟨⟨hs, lt_of_not_ge hm⟩, ?_⟩)
      simp [recordSuccess, appendOutcome, hs, hm]
  · exact .inl ⟨hs, recordSuccess_of_ne_halfOpen hs⟩

theorem recordSuccess_halfOpen {b : CircuitBreaker} (h : b.state = .halfOpen) :
    (b.config.halfOpenMaxRequests ≤ b.halfOpenSuccesses + 1 ∧
      (recordSuccess b).state = .closed) ∨
    (b.halfOpenSuccesses + 1 < b.config.halfOpenMaxRequests ∧
      (recordSuccess b).state = .halfOpen ∧
      (recordSuccess b).halfOpenInFlight = max 0 (b.halfOpenInFlight - 1) ∧
      (recordSuccess b).halfOpenSuccesses = b.halfOpenSuccesses + 1) := by
  obtain ⟨hs, -⟩ | ⟨⟨-, hm⟩, hr⟩ | ⟨⟨-, hm⟩, hr⟩ := recordSuccess_cases b
  · exact absurd h hs
  · rw [hr]
    exact .inl ⟨hm, rfl⟩
  · rw [hr]
    exact .inr ⟨hm, h, rfl, rfl⟩

@[simp] theorem recordSuccess_config (b : CircuitBreaker) :
    (recordSuccess b).config = b.config := by
  obtain ⟨-, hr⟩ | ⟨-, hr⟩ | ⟨-, hr⟩ := recordSuccess_cases b <;> rw [hr] <;> rfl

theorem maybeOpen_eq (clock : ℚ) (b : CircuitBreaker) :
    (maybeOpen clock b).1 = if Trips b.config b.outcomes then transitionToOpen clock b else b := by
  by_cases hmin : (b.outcomes.length : ℤ) < b.config.minimumRequests
  · have hnot : ¬Trips b.config b.outcomes := fun h => absurd h.1 (not_le.mpr hmin)
    simp [maybeOpen, hmin, hnot]
  by_cases hempty : b.outcomes.length = 0
  · have hnot : ¬Trips b.config b.outcomes := fun h => absurd hempty h.2.1.ne'
    rw [maybeOpen, if_neg hmin, if_pos hempty, if_neg hnot]
  have hpos : (0 : ℚ) < b.outcomes.length := by exact_mod_cast Nat.pos_of_ne_zero hempty
  have hrate : b.config.failureThreshold ≤
      (b.outcomes.countP (fun success => !success) : ℚ) / b.outcomes.length ↔
        Trips b.config b.outcomes := by
    rw [le_div_iff₀ hpos]
    exact ⟨fun h => ⟨not_lt.mp hmin, Nat.pos_of_ne_zero hempty, h⟩, fun h => h.2.2⟩
  by_cases htrips : Trips b.config b.outcomes
  · simp only [maybeOpen, hmin, hempty, hrate.mpr htrips, htrips, ↓reduceIte]
  · simp only [maybeOpen, hmin, hempty, mt hrate.mp htrips, htrips, ↓reduceIte]

theorem recordFailure_closed {b : CircuitBreaker} (hs : b.state = .closed) (clock : ℚ) :
    (recordFailure clock b).1 =
      if Trips b.config (appendOutcome false b).outcomes then
        transitionToOpen clock (appendOutcome false b)
      else appendOutcome false b := by
  have hr : recordFailure clock b = maybeOpen clock (appendOutcome false b) := by
    simp [recordFailure, appendOutcome, hs]
  rw [hr, maybeOpen_eq]
  rfl

theorem recordFailure_cases (clock : ℚ) (b : CircuitBreaker) :
    (b.state ≠ .halfOpen ∧ (recordFailure clock b).1 = appendOutcome false b) ∨
    (b.state ≠ .open ∧
      (recordFailure clock b).1 = transitionToOpen clock (appendOutcome false b)) := by
  cases hs : b.state with
  | closed =>
    rw [recordFailure_closed hs]
    split_ifs
    · exact .inr ⟨by simp, rfl⟩
    · exact .inl ⟨by simp, rfl⟩
  | «open» => exact .inl ⟨by simp, by simp [recordFailure, appendOutcome, hs]⟩
  | halfOpen =>
    exact .inr ⟨by simp, by simp [recordFailure, appendOutcome, hs, transitionToOpen]⟩

@[simp] theorem recordFailure_config (clock : ℚ) (b : CircuitBreaker) :
    (recordFailure clock b).1.config = b.config := by
  obtain ⟨-, hr⟩ | ⟨-, hr⟩ := recordFailure_cases clock b <;> rw [hr] <;> rfl

end Sentinel.Breaker
