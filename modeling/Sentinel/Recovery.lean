import Sentinel.Representation
import Sentinel.Simulation

namespace Sentinel.Recovery

open Breaker Recent Runs Simulation
open Sentinel.Representation
open Operations (Op operate operate_config)

/-- What a breaker is for, without the fields that are dead in each of its states: a closed circuit
has a window of outcomes, an open one a date, a half-open one its probes. -/
inductive Circuit
  | closed (window : List Bool)
  | opened (since : ℚ)
  | probing (inFlight successes : ℤ)

namespace Circuit

variable (name : String) (config : CircuitBreakerConfig)

def state : Circuit → CircuitState
  | .closed _ => .closed
  | .opened _ => .open
  | .probing _ _ => .halfOpen

def look (clock : ℚ) : Circuit → Circuit
  | .opened since =>
    if since + config.openDurationSeconds ≤ clock then .probing 0 0 else .opened since
  | c => c

def ask (clock : ℚ) (c : Circuit) : Circuit × Except BreakerError Unit :=
  match c.look config clock with
  | .closed window => (.closed window, .ok ())
  | .opened since => (.opened since, .error (.circuitOpen name))
  | .probing inFlight successes =>
    if config.halfOpenMaxRequests ≤ inFlight then
      (.probing inFlight successes, .error (.circuitOpen name))
    else (.probing (inFlight + 1) successes, .ok ())

def succeed : Circuit → Circuit
  | .closed window => .closed (push config.rollingWindowSize window true)
  | .opened since => .opened since
  | .probing inFlight successes =>
    if config.halfOpenMaxRequests ≤ successes + 1 then .closed []
    else .probing (max 0 (inFlight - 1)) (successes + 1)

def fail (clock : ℚ) : Circuit → Circuit
  | .closed window =>
    let window := push config.rollingWindowSize window false
    if Trips config window then .opened clock else .closed window
  | .opened since => .opened since
  | .probing _ _ => .opened clock

def failure : Circuit → Except BreakerError Unit
  | .closed _ =>
    if config.minimumRequests ≤ 0 ∧ config.rollingWindowSize = 0 then .error .zeroDivision
    else .ok ()
  | _ => .ok ()

def act (c : Circuit) (e : ℚ × Op) : Circuit :=
  match e.2 with
  | .readState => c.look config e.1
  | .beforeRequest => (c.ask name config e.1).1
  | .recordSuccess => c.succeed config
  | .recordFailure => c.fail config e.1

def answer (c : Circuit) (e : ℚ × Op) : Except BreakerError (Option CircuitState) :=
  match e.2 with
  | .readState => .ok (some (c.look config e.1).state)
  | .beforeRequest => (c.ask name config e.1).2.map (fun _ => none)
  | .recordSuccess => .ok none
  | .recordFailure => (c.failure config).map (fun _ => none)

end Circuit

def answer (b : CircuitBreaker) (e : ℚ × Op) : Except BreakerError (Option CircuitState) :=
  match e.2 with
  | .readState => .ok (some (readState e.1 b).state)
  | .beforeRequest => (beforeRequest e.1 b).2.map (fun _ => none)
  | .recordSuccess => .ok none
  | .recordFailure => (recordFailure e.1 b).2.map (fun _ => none)

def circuitOf (b : CircuitBreaker) : Circuit :=
  match b.state with
  | .closed => .closed b.outcomes
  | .open => .opened (b.openedAt.getD 0)
  | .halfOpen => .probing b.halfOpenInFlight b.halfOpenSuccesses

/-- The breaker is a circuit; an open one knows since when. -/
structure Shows (name : String) (config : CircuitBreakerConfig) (b : CircuitBreaker)
    (c : Circuit) : Prop where
  name : b.name = name
  config : b.config = config
  dated : b.state = .open → ∃ openedAt, b.openedAt = some openedAt
  circuit : circuitOf b = c

section

variable {name : String} {config : CircuitBreakerConfig} {b : CircuitBreaker} {c : Circuit}
  {clock : ℚ}

theorem circuitOf_state (b : CircuitBreaker) : (circuitOf b).state = b.state := by
  cases hs : b.state <;> simp [circuitOf, hs, Circuit.state]

theorem Shows.readState (h : Shows name config b c) (clock : ℚ) :
    Shows name config (readState clock b) (c.look config clock) := by
  obtain ⟨rfl, rfl, hdated, rfl⟩ := h
  cases hs : b.state with
  | closed | halfOpen =>
    have hr : Breaker.readState clock b = b := readState_of_ne_open (by simp [hs])
    rw [hr]
    exact ⟨rfl, rfl, hdated, by simp [circuitOf, hs, Circuit.look]⟩
  | «open» =>
    obtain ⟨openedAt, ho⟩ := hdated hs
    by_cases hdue : openedAt + b.config.openDurationSeconds ≤ clock
    · have hr : Breaker.readState clock b = transitionToHalfOpen b := by
        simp [Breaker.readState, hs, ho, le_sub_iff_add_le', hdue]
      rw [hr]
      exact ⟨rfl, rfl, by simp [transitionToHalfOpen],
        by simp [circuitOf, transitionToHalfOpen, hs, ho, Circuit.look, hdue]⟩
    · have hr : Breaker.readState clock b = b := by
        simp [Breaker.readState, hs, ho, le_sub_iff_add_le', hdue]
      rw [hr]
      exact ⟨rfl, rfl, hdated, by simp [circuitOf, hs, ho, Circuit.look, hdue]⟩

theorem Shows.beforeRequest (h : Shows name config b c) (clock : ℚ) :
    Shows name config (beforeRequest clock b).1 (c.ask name config clock).1 ∧
      (beforeRequest clock b).2 = (c.ask name config clock).2 := by
  obtain ⟨hname, hconfig, hdated, hcircuit⟩ := h.readState clock
  simp only [Circuit.ask, Breaker.beforeRequest, ← hcircuit]
  cases hs : (Breaker.readState clock b).state with
  | closed | «open» =>
    simp only [circuitOf, hs, hname]
    exact ⟨⟨hname, hconfig, hdated, by simp [circuitOf, hs]⟩, trivial⟩
  | halfOpen =>
    simp only [circuitOf, hs, hname, hconfig]
    split_ifs with hfull
    · exact ⟨⟨hname, hconfig, hdated, by simp [circuitOf, hs]⟩, rfl⟩
    · exact ⟨⟨rfl, rfl, by simp, by simp [circuitOf]⟩, rfl⟩

theorem Shows.recordSuccess (h : Shows name config b c) :
    Shows name config (recordSuccess b) (c.succeed config) := by
  obtain ⟨rfl, rfl, hdated, rfl⟩ := h
  obtain ⟨hs, hr⟩ | ⟨⟨hs, hm⟩, hr⟩ | ⟨⟨hs, hm⟩, hr⟩ := recordSuccess_cases b
  · rw [hr]
    refine ⟨rfl, rfl, hdated, ?_⟩
    cases hs' : b.state with
    | closed => simp [circuitOf, appendOutcome, hs', Circuit.succeed, push]
    | «open» => simp [circuitOf, appendOutcome, hs', Circuit.succeed]
    | halfOpen => exact absurd hs' hs
  · rw [hr]
    exact ⟨rfl, rfl, by simp [transitionToClosed],
      by simp [circuitOf, transitionToClosed, hs, Circuit.succeed, hm]⟩
  · rw [hr]
    exact ⟨rfl, rfl, by simp [appendOutcome, hs],
      by simp [circuitOf, appendOutcome, hs, Circuit.succeed, not_le.mpr hm]⟩

theorem Shows.recordFailure (h : Shows name config b c) (clock : ℚ) :
    Shows name config (recordFailure clock b).1 (c.fail config clock) := by
  obtain ⟨rfl, rfl, hdated, rfl⟩ := h
  cases hs : b.state with
  | closed =>
    rw [recordFailure_closed hs]
    by_cases htrips : Trips b.config (appendOutcome false b).outcomes
    · rw [if_pos htrips]
      refine ⟨rfl, rfl, fun _ => ⟨clock, rfl⟩, ?_⟩
      simp only [circuitOf, transitionToOpen, hs, Circuit.fail, Option.getD_some]
      exact (if_pos htrips).symm
    · rw [if_neg htrips]
      refine ⟨rfl, rfl, by simp [appendOutcome, hs], ?_⟩
      simp only [circuitOf, appendOutcome, hs, Circuit.fail]
      exact (if_neg htrips).symm
  | «open» =>
    have hr : (Breaker.recordFailure clock b).1 = appendOutcome false b := by
      simp [Breaker.recordFailure, appendOutcome, hs]
    rw [hr]
    exact ⟨rfl, rfl, hdated, by simp [circuitOf, appendOutcome, hs, Circuit.fail]⟩
  | halfOpen =>
    have hr : (Breaker.recordFailure clock b).1 =
        transitionToOpen clock (appendOutcome false b) := by
      simp [Breaker.recordFailure, appendOutcome, hs, transitionToOpen]
    rw [hr]
    exact ⟨rfl, rfl, fun _ => ⟨clock, rfl⟩,
      by simp [circuitOf, transitionToOpen, hs, Circuit.fail]⟩

theorem maybeOpen_result (clock : ℚ) (b : CircuitBreaker) :
    (maybeOpen clock b).2 =
      if b.config.minimumRequests ≤ 0 ∧ b.outcomes.length = 0 then .error .zeroDivision
      else .ok () := by
  by_cases hempty : b.outcomes.length = 0
  · by_cases hmin : b.config.minimumRequests ≤ 0
    · simp [maybeOpen, hempty, hmin, not_lt.mpr hmin]
    · simp [maybeOpen, hempty, hmin, lt_of_not_ge hmin]
  · simp only [maybeOpen, hempty, and_false, ↓reduceIte]
    split_ifs <;> rfl

theorem Shows.failure (h : Shows name config b c) (clock : ℚ) :
    (Breaker.recordFailure clock b).2 = c.failure config := by
  obtain ⟨rfl, rfl, -, rfl⟩ := h
  cases hs : b.state with
  | closed =>
    have hr : Breaker.recordFailure clock b = maybeOpen clock (appendOutcome false b) := by
      simp [Breaker.recordFailure, appendOutcome, hs]
    have hlen : (appendOutcome false b).outcomes.length = 0 ↔ b.config.rollingWindowSize = 0 := by
      rw [Operations.appendOutcome_outcomes, length_push]
      omega
    rw [hr, maybeOpen_result]
    simp only [hlen, circuitOf, hs, Circuit.failure]
    rfl
  | «open» | halfOpen => simp [Breaker.recordFailure, appendOutcome, circuitOf, hs, Circuit.failure]

theorem Shows.operate (h : Shows name config b c) (e : ℚ × Op) :
    Shows name config (operate e.1 b e.2) (c.act name config e) := by
  obtain ⟨clock, op⟩ := e
  cases op with
  | readState => exact h.readState clock
  | beforeRequest => exact (h.beforeRequest clock).1
  | recordSuccess => exact h.recordSuccess
  | recordFailure => exact h.recordFailure clock

theorem Shows.answer (h : Shows name config b c) (e : ℚ × Op) :
    answer b e = c.answer name config e := by
  obtain ⟨clock, op⟩ := e
  cases op with
  | readState =>
    have hr := h.readState clock
    simp only [Recovery.answer, Circuit.answer, ← hr.circuit, circuitOf_state]
  | beforeRequest => simp only [Recovery.answer, Circuit.answer, (h.beforeRequest clock).2]
  | recordSuccess => rfl
  | recordFailure => simp only [Recovery.answer, Circuit.answer, h.failure clock]

theorem shows_new (name : String) (config : CircuitBreakerConfig) :
    Shows name config { name, config } (.closed []) :=
  ⟨rfl, rfl, by simp, rfl⟩

end

/-- No sequence of calls can tell the breaker from the circuit: what it stores besides, such as the
outcomes recorded while it is not closed, never shows. -/
theorem breaker_refines_circuit (name : String) (config : CircuitBreakerConfig)
    (es : List (ℚ × Op)) :
    outputs (fun b e => operate e.1 b e.2) answer { name, config } es =
      outputs (Circuit.act name config) (Circuit.answer name config) (.closed []) es :=
  outputs_eq_of_simulation (fun _ _ e h => h.answer e) (fun _ _ e h => h.operate e)
    (shows_new name config) es

/-- A request of one caller: `before_request` and, if it is admitted, a success. -/
def visit (b : CircuitBreaker) (clock : ℚ) : CircuitBreaker :=
  match beforeRequest clock b with
  | (b, .ok ()) => recordSuccess b
  | (b, .error _) => b

namespace Circuit

variable (name : String) (config : CircuitBreakerConfig)

def visit (c : Circuit) (clock : ℚ) : Circuit :=
  match c.ask name config clock with
  | (c, .ok ()) => c.succeed config
  | (c, .error _) => c

variable {name : String} {config : CircuitBreakerConfig}

theorem visits_closed (window : List Bool) (clocks : List ℚ) :
    (clocks.foldl (visit name config) (.closed window)).state = .closed := by
  induction clocks generalizing window with
  | nil => rfl
  | cons clock clocks ih => exact ih _

theorem visits_probing {inFlight : ℤ} (hin : 0 ≤ inFlight)
    (hfree : inFlight < config.halfOpenMaxRequests) (successes : ℤ) (clocks : List ℚ) :
    (clocks.foldl (visit name config) (.probing inFlight successes)).state = .closed ↔
      clocks ≠ [] ∧ config.halfOpenMaxRequests ≤ successes + clocks.length := by
  induction clocks generalizing successes with
  | nil => simp [state]
  | cons clock clocks ih =>
    have hvisit : visit name config (.probing inFlight successes) clock =
        if config.halfOpenMaxRequests ≤ successes + 1 then .closed []
        else .probing inFlight (successes + 1) := by
      simp [visit, ask, look, not_le.mpr hfree, succeed, hin]
    rw [List.foldl_cons, hvisit]
    split_ifs with hlast
    · simp only [visits_closed, List.length_cons, Nat.cast_add, Nat.cast_one, true_iff]
      exact ⟨by simp, by omega⟩
    · rw [ih]
      cases clocks with
      | nil => simp [hlast]
      | cons clock' clocks =>
        simp only [List.length_cons, Nat.cast_add, Nat.cast_one, ne_eq, reduceCtorEq,
          not_false_eq_true, true_and]
        constructor <;> intro h <;> omega

theorem visits_full {inFlight : ℤ} (hfull : config.halfOpenMaxRequests ≤ inFlight)
    (successes : ℤ) (clocks : List ℚ) :
    clocks.foldl (visit name config) (.probing inFlight successes) =
      .probing inFlight successes := by
  induction clocks with
  | nil => rfl
  | cons clock clocks ih =>
    have hvisit : visit name config (.probing inFlight successes) clock =
        .probing inFlight successes := by
      simp [visit, ask, look, hfull]
    rw [List.foldl_cons, hvisit, ih]

theorem visits_opened {since clock : ℚ} (hdue : since + config.openDurationSeconds ≤ clock)
    (clocks : List ℚ) : (clock :: clocks).foldl (visit name config) (.opened since) =
      (clock :: clocks).foldl (visit name config) (.probing 0 0) := by
  rw [List.foldl_cons, List.foldl_cons]
  simp [visit, ask, look, hdue]

end Circuit

theorem Shows.visit {name : String} {config : CircuitBreakerConfig} {b : CircuitBreaker}
    {c : Circuit} (h : Shows name config b c) (clock : ℚ) :
    Shows name config (visit b clock) (c.visit name config clock) := by
  obtain ⟨hask, hresult⟩ := h.beforeRequest clock
  simp only [Recovery.visit, Circuit.visit]
  generalize Breaker.beforeRequest clock b = r at hask hresult ⊢
  generalize c.ask name config clock = r' at hask hresult ⊢
  obtain ⟨b', result⟩ := r
  obtain ⟨c', result'⟩ := r'
  obtain rfl : result = result' := hresult
  cases result with
  | ok _ => exact hask.recordSuccess
  | error e => exact hask

theorem Shows.visits {name : String} {config : CircuitBreakerConfig} {b : CircuitBreaker}
    {c : Circuit} (h : Shows name config b c) (clocks : List ℚ) :
    Shows name config (clocks.foldl Recovery.visit b)
      (clocks.foldl (Circuit.visit name config) c) := by
  induction clocks generalizing b c with
  | nil => exact h
  | cons clock clocks ih => exact ih (h.visit clock)

def successesMissing (b : CircuitBreaker) : ℤ :=
  match b.state with
  | .closed => 0
  | .open => b.config.halfOpenMaxRequests
  | .halfOpen => b.config.halfOpenMaxRequests - b.halfOpenSuccesses

/-- Whatever happened before, a breaker whose open period is over closes after as many successful
requests as it still misses and no fewer, unless lost probes have taken all its places. -/
theorem recovers_iff (name : String) (config : CircuitBreakerConfig)
    (hmax : 1 ≤ config.halfOpenMaxRequests) {b : CircuitBreaker}
    (h : Reaches Operations.step { name, config } b) (clocks : List ℚ)
    (hdue : ∀ clock ∈ clocks, ∀ openedAt, b.state = .open → b.openedAt = some openedAt →
      openedAt + config.openDurationSeconds ≤ clock) :
    (clocks.foldl visit b).state = .closed ↔
      (b.state = .halfOpen → b.halfOpenInFlight < config.halfOpenMaxRequests) ∧
        successesMissing b ≤ clocks.length := by
  have hinv : Represents b ∧ Shows name config b (circuitOf b) := by
    refine h.invariant (I := fun b => Represents b ∧ Shows name config b (circuitOf b)) ?_
      ⟨represents_new name config, shows_new name config⟩
    rintro b e b' ⟨hb, hshows⟩ rfl
    have hnext := hshows.operate e
    exact ⟨hb.operate (hshows.config ▸ hmax) e.1 e.2, hnext.circuit ▸ hnext⟩
  obtain ⟨hrep, hshows⟩ := hinv
  have hstate : (clocks.foldl visit b).state =
      (clocks.foldl (Circuit.visit name config) (circuitOf b)).state := by
    have hvisits := hshows.visits clocks
    rw [← hvisits.circuit, circuitOf_state]
  rw [hstate]
  cases hs : b.state with
  | closed => simp [circuitOf, hs, Circuit.visits_closed, successesMissing]
  | «open» =>
    obtain ⟨openedAt, ho⟩ := hshows.dated hs
    simp only [circuitOf, hs, ho, Option.getD_some, successesMissing, hshows.config]
    cases clocks with
    | nil =>
      simp [Circuit.state]
      omega
    | cons clock clocks =>
      rw [Circuit.visits_opened (hdue clock (.head _) openedAt hs ho),
        Circuit.visits_probing le_rfl (by omega)]
      simp
  | halfOpen =>
    have hin := hrep.inFlight hs
    have hsucc := hrep.successes hs
    rw [hshows.config] at hin hsucc
    simp only [circuitOf, hs, successesMissing, hshows.config, forall_const]
    by_cases hfree : b.halfOpenInFlight < config.halfOpenMaxRequests
    · rw [Circuit.visits_probing hin.1 hfree]
      simp only [hfree, true_and, ne_eq]
      constructor
      · rintro ⟨-, hle⟩
        omega
      · intro hle
        refine ⟨?_, by omega⟩
        rintro rfl
        simp at hle
        omega
    · rw [Circuit.visits_full (not_lt.mp hfree)]
      simp [Circuit.state, hfree]

open Callers (twoProbes) in
theorem recovers_after_two : ∃ b,
    Reaches Operations.step { name := "users", config := twoProbes } b ∧
    b.state = .open ∧ ([2].foldl visit b).state ≠ .closed ∧
      ([2, 2].foldl visit b).state = .closed := by
  obtain ⟨b, hr, hc⟩ := Reaches.of_check (fun b e => some (operate e.1 b e.2))
    (fun b => b.state = .open ∧ b.openedAt = some 0 ∧ b.config.halfOpenMaxRequests = 2)
    { name := "users", config := twoProbes } [(0, .recordFailure), (0, .recordFailure)]
    (by decide +kernel)
  have hreach : Reaches Operations.step { name := "users", config := twoProbes } b :=
    hr.mono (fun _ _ _ hs => (Option.some.inj hs).symm)
  obtain ⟨hs, ho, hm⟩ := of_decide_eq_true hc
  have hdue : ∀ clocks : List ℚ, (∀ clock ∈ clocks, clock = 2) → ∀ clock ∈ clocks, ∀ openedAt,
      b.state = .open → b.openedAt = some openedAt →
        openedAt + twoProbes.openDurationSeconds ≤ clock := by
    rintro clocks htwo clock hmem openedAt - ho'
    obtain rfl := Option.some.inj (ho.symm.trans ho')
    rw [htwo clock hmem]
    norm_num [twoProbes]
  refine ⟨b, hreach, hs, ?_, ?_⟩
  · rw [Ne, recovers_iff "users" twoProbes (by decide) hreach [2] (hdue [2] (by simp))]
    simp [successesMissing, hs, hm]
  · rw [recovers_iff "users" twoProbes (by decide) hreach [2, 2] (hdue [2, 2] (by simp))]
    simp [successesMissing, hs, hm]

end Sentinel.Recovery
