import Sentinel.Callers
import Sentinel.Operations

namespace Sentinel.TripCondition

open Breaker Runs Recent Operations
open Callers (twoProbes)

/-- A breaker with every outcome recorded since it was built or last closed. -/
structure Recorded where
  breaker : CircuitBreaker
  history : List Bool := []
  deriving DecidableEq

def record (s : Recorded) (e : ℚ × Op) : Recorded :=
  { breaker := operate e.1 s.breaker e.2
    history := if Closes e.1 s.breaker e.2 then [] else s.history ++ e.2.outcome?.toList }

def recording (s : Recorded) (e : ℚ × Op) (t : Recorded) : Prop := t = record s e

def Windowed (s : Recorded) : Prop :=
  s.breaker.outcomes = s.history.rtake s.breaker.config.rollingWindowSize

theorem record_windowed {s : Recorded} (h : Windowed s) (e : ℚ × Op) : Windowed (record s e) := by
  have hc : (record s e).breaker.config = s.breaker.config := operate_config e.1 s.breaker e.2
  rw [Windowed, hc]
  simp only [record, operate_outcomes]
  split_ifs
  · simp
  · rw [h, foldl_push]

theorem reaches_windowed {name : String} {config : CircuitBreakerConfig} {s : Recorded}
    (h : Reaches recording { breaker := { name, config } } s) :
    s.breaker.config = config ∧ Windowed s := by
  refine h.invariant (I := fun s => s.breaker.config = config ∧ Windowed s) ?_
    ⟨rfl, by simp [Windowed]⟩
  rintro s e t ⟨hc, hw⟩ rfl
  exact ⟨by simp [record, hc], record_windowed hw e⟩

/-- The last `k` of the outcomes recorded, `k` at most the size of the window. -/
def considered (config : CircuitBreakerConfig) (history : List Bool) : ℕ :=
  min history.length config.rollingWindowSize

theorem trips_rtake (config : CircuitBreakerConfig) (history : List Bool) :
    Trips config (history.rtake config.rollingWindowSize) ↔
      config.minimumRequests ≤ considered config history ∧ 0 < considered config history ∧
        config.failureThreshold * considered config history ≤
          failures (history.rtake (considered config history)) := by
  have hlen : (history.rtake config.rollingWindowSize).length = considered config history := by
    rw [length_rtake, min_comm]
    rfl
  rw [Trips, hlen, considered, rtake_min_length]

/-- A failure recorded in `CLOSED` opens the circuit exactly when enough of the last outcomes
since the circuit closed are failures, and nothing else leaves `CLOSED`. -/
theorem closed_opens_iff (name : String) (config : CircuitBreakerConfig) (s : Recorded)
    (h : Reaches recording { breaker := { name, config } } s) (hs : s.breaker.state = .closed)
    (clock : ℚ) :
    ((operate clock s.breaker .recordFailure).state = .open ↔
      config.minimumRequests ≤ considered config (s.history ++ [false]) ∧
      0 < considered config (s.history ++ [false]) ∧
      config.failureThreshold * considered config (s.history ++ [false]) ≤
        failures ((s.history ++ [false]).rtake (considered config (s.history ++ [false])))) ∧
    (operate clock s.breaker .recordFailure).state ≠ .halfOpen ∧
    ∀ op, op ≠ .recordFailure → (operate clock s.breaker op).state = .closed := by
  obtain ⟨rfl, hw⟩ := reaches_windowed h
  have happ : (appendOutcome false s.breaker).outcomes =
      (s.history ++ [false]).rtake s.breaker.config.rollingWindowSize := by
    rw [appendOutcome_outcomes, hw, push_rtake]
  have hfail : (operate clock s.breaker .recordFailure).state =
      if Trips s.breaker.config (appendOutcome false s.breaker).outcomes then .open
      else .closed := by
    rw [operate, recordFailure_closed hs]
    split_ifs
    · rfl
    · exact hs
  refine ⟨?_, ?_, fun op hop => operate_closed hs hop clock⟩
  · rw [hfail, happ, ← trips_rtake]
    split_ifs with ht <;> simp [ht]
  · rw [hfail]
    split_ifs <;> simp

theorem closed_opens_at_second_failure :
    ∃ s, Reaches recording { breaker := { name := "users", config := twoProbes } } s ∧
      s.breaker.state = .closed ∧ (operate 1 s.breaker .recordFailure).state = .open := by
  have hr : Reaches recording { breaker := { name := "users", config := twoProbes } }
      (record { breaker := { name := "users", config := twoProbes } } (0, .recordFailure)) :=
    (Reaches.refl _).tail rfl
  refine ⟨_, hr, by decide +kernel, ?_⟩
  exact (closed_opens_iff "users" twoProbes _ hr (by decide +kernel) 1).1.mpr (by decide +kernel)

def BelowThreshold (b : CircuitBreaker) : Prop :=
  b.state = .closed → b.config.minimumRequests ≤ b.outcomes.length →
    (failures b.outcomes : ℚ) / b.outcomes.length < b.config.failureThreshold

/-- A success brings a window that is not yet full to `minimum_requests` outcomes, of which
enough are failures; `record_success` does not look at the rate. -/
def unevaluated (b : CircuitBreaker) : Op → Bool
  | .recordSuccess => b.state = .closed ∧ b.outcomes.length < b.config.rollingWindowSize ∧
      b.config.minimumRequests = b.outcomes.length + 1 ∧
      b.config.failureThreshold * b.config.minimumRequests ≤ failures b.outcomes
  | _ => false

theorem length_operate_le {b : CircuitBreaker}
    (h : b.outcomes.length ≤ b.config.rollingWindowSize) (clock : ℚ) (op : Op) :
    (operate clock b op).outcomes.length ≤ b.config.rollingWindowSize := by
  rw [operate_outcomes]
  split_ifs
  · simp
  · cases op <;> simp [Op.outcome?, length_push, h]

theorem belowThreshold_iff {b : CircuitBreaker} (hmin : 1 ≤ b.config.minimumRequests) :
    BelowThreshold b ↔ (b.state = .closed → ¬Trips b.config b.outcomes) := by
  refine imp_congr_right fun _ => ?_
  constructor
  · rintro h ⟨hlen, hpos, hrate⟩
    have hpos' : (0 : ℚ) < b.outcomes.length := by exact_mod_cast hpos
    exact absurd (h hlen) (not_lt.mpr ((le_div_iff₀ hpos').mpr hrate))
  · intro h hlen
    have hpos : 0 < b.outcomes.length := by omega
    have hpos' : (0 : ℚ) < b.outcomes.length := by exact_mod_cast hpos
    exact lt_of_not_ge fun hrate => h ⟨hlen, hpos, (le_div_iff₀ hpos').mp hrate⟩

theorem trips_push_true {config : CircuitBreakerConfig} {outcomes : List Bool}
    (hθ : 0 < config.failureThreshold) (hmin : 1 ≤ config.minimumRequests)
    (hlen : outcomes.length ≤ config.rollingWindowSize) (h : ¬Trips config outcomes) :
    Trips config (push config.rollingWindowSize outcomes true) ↔
      outcomes.length < config.rollingWindowSize ∧
        config.minimumRequests = outcomes.length + 1 ∧
        config.failureThreshold * config.minimumRequests ≤ failures outcomes := by
  by_cases hlt : outcomes.length < config.rollingWindowSize
  · have hf : failures (outcomes ++ [true]) = failures outcomes := by simp [failures]
    rw [push_of_length_lt hlt, Trips, hf]
    simp only [List.length_append, List.length_singleton, hlt, true_and]
    push_cast
    constructor
    · rintro ⟨hm, -, hrate⟩
      have hne : ¬config.minimumRequests ≤ outcomes.length := by
        intro hm'
        have hpos : 0 < outcomes.length := by omega
        exact h ⟨hm', hpos, by linarith⟩
      have heq : config.minimumRequests = outcomes.length + 1 := by omega
      exact ⟨heq, by rw [heq]; push_cast; exact hrate⟩
    · rintro ⟨heq, hrate⟩
      rw [heq] at hrate
      push_cast at hrate
      exact ⟨by omega, by omega, hrate⟩
  · have heq : outcomes.length = config.rollingWindowSize := by omega
    have hl : (push config.rollingWindowSize outcomes true).length = outcomes.length := by
      rw [length_push]
      omega
    have hf : failures (push config.rollingWindowSize outcomes true) ≤ failures outcomes :=
      countP_push_le _ _ outcomes true
    have hf' : (failures (push config.rollingWindowSize outcomes true) : ℚ) ≤
        failures outcomes := by exact_mod_cast hf
    refine iff_of_false ?_ (fun h => hlt h.1)
    rintro ⟨hm, hpos, hrate⟩
    rw [hl] at hm hpos hrate
    exact h ⟨hm, hpos, hrate.trans hf'⟩

theorem operate_belowThreshold {b : CircuitBreaker} (hθ : 0 < b.config.failureThreshold)
    (hmin : 1 ≤ b.config.minimumRequests)
    (hlen : b.outcomes.length ≤ b.config.rollingWindowSize) (h : BelowThreshold b)
    (clock : ℚ) (op : Op) :
    BelowThreshold (operate clock b op) ↔ unevaluated b op = false := by
  rw [belowThreshold_iff hmin] at h
  rw [belowThreshold_iff (by simpa using hmin), operate_config]
  by_cases hs : b.state = .closed
  · have hout := operate_outcomes clock b op
    rw [if_neg (fun hc : Closes clock b op => by simp [hc.1] at hs)] at hout
    cases op with
    | readState | beforeRequest =>
      rw [hout]
      exact iff_of_true (fun _ => h hs) rfl
    | recordSuccess =>
      have hc : (operate clock b .recordSuccess).state = .closed :=
        operate_closed hs (by simp) clock
      have hpush := trips_push_true hθ hmin hlen (h hs)
      simp only [Op.outcome?, Option.toList_some, List.foldl_cons, List.foldl_nil] at hout
      rw [hout, hpush]
      simp [unevaluated, hc, hs]
    | recordFailure =>
      refine iff_of_true (fun hc => ?_) rfl
      rw [operate, recordFailure_closed hs] at hc ⊢
      split_ifs at hc ⊢ with ht
      · cases hc
      · exact ht
  · refine iff_of_true (fun hc ht => ?_) (by cases op <;> simp [unevaluated, hs])
    have hout := operate_outcomes clock b op
    rw [if_pos (closes_of_closed hs hc)] at hout
    simpa [hout] using ht.2.1

/-- A run shows every closed circuit below its threshold exactly when no success fills the window
up to `minimum_requests` while the failures in it already reach the threshold. -/
theorem closed_below_threshold_iff (name : String) (config : CircuitBreakerConfig)
    (hθ : 0 < config.failureThreshold) (hmin : 1 ≤ config.minimumRequests)
    (es : List (ℚ × Op)) :
    (∀ done, done <+: es → BelowThreshold (run { name, config } done)) ↔
      ∀ done e, done ++ [e] <+: es → unevaluated (run { name, config } done) e.2 = false := by
  have hkept : ∀ (b : CircuitBreaker) (e : ℚ × Op),
      b.config = config ∧ b.outcomes.length ≤ b.config.rollingWindowSize →
      (operate e.1 b e.2).config = config ∧
        (operate e.1 b e.2).outcomes.length ≤ (operate e.1 b e.2).config.rollingWindowSize := by
    rintro b e ⟨hc, hlen⟩
    rw [operate_config]
    exact ⟨hc, length_operate_le hlen e.1 e.2⟩
  have hstep : ∀ (b : CircuitBreaker) (e : ℚ × Op),
      b.config = config ∧ b.outcomes.length ≤ b.config.rollingWindowSize → BelowThreshold b →
      (BelowThreshold (operate e.1 b e.2) ↔ unevaluated b e.2 = false) := by
    rintro b e ⟨rfl, hlen⟩ h
    exact operate_belowThreshold hθ hmin hlen h e.1 e.2
  have hempty : BelowThreshold { name, config } := by
    intro _ hle
    simp only [List.length_nil, Nat.cast_zero] at hle
    omega
  exact forall_foldl_iff hkept hstep ⟨rfl, Nat.zero_le _⟩ hempty es

theorem below_threshold_after_two_successes :
    0 < twoProbes.failureThreshold ∧ 1 ≤ twoProbes.minimumRequests ∧
      ∀ done, done <+: [(0, Op.recordSuccess), (0, Op.recordSuccess)] →
        BelowThreshold (run { name := "users", config := twoProbes } done) := by
  refine ⟨by decide +kernel, by decide, ?_⟩
  refine (closed_below_threshold_iff "users" twoProbes (by decide +kernel) (by decide) _).mpr ?_
  intro done e h
  have hcases : done = [] ∧ e = (0, Op.recordSuccess) ∨
      done = [(0, Op.recordSuccess)] ∧ e = (0, Op.recordSuccess) := by
    obtain _ | ⟨d, _ | ⟨d', done⟩⟩ := done
    · simpa [List.cons_prefix_cons] using h
    · simpa [List.cons_prefix_cons] using h
    · simp [List.cons_prefix_cons] at h
  obtain ⟨rfl, rfl⟩ | ⟨rfl, rfl⟩ := hcases
  · decide +kernel
  · decide +kernel

theorem closed_at_threshold :
    ¬∀ done, done <+: [(0, Op.recordFailure), (0, Op.recordSuccess)] →
      BelowThreshold (run { name := "users", config := twoProbes } done) := by
  intro h
  have hlast := h _ (List.prefix_refl _)
  have hclosed : (run { name := "users", config := twoProbes }
      [(0, Op.recordFailure), (0, Op.recordSuccess)]).state = .closed := by decide +kernel
  exact absurd (hlast hclosed (by decide +kernel)) (by decide +kernel)

theorem reaches_window {name : String} {config : CircuitBreakerConfig} {b : CircuitBreaker}
    (h : Reaches step { name, config } b) :
    b.config = config ∧ b.outcomes.length ≤ config.rollingWindowSize := by
  refine h.invariant (I := fun b : CircuitBreaker =>
    b.config = config ∧ b.outcomes.length ≤ config.rollingWindowSize) ?_ ⟨rfl, Nat.zero_le _⟩
  rintro b e c ⟨rfl, hlen⟩ rfl
  exact ⟨operate_config e.1 b e.2, length_operate_le hlen e.1 e.2⟩

def fail (clock : ℚ) (b : CircuitBreaker) : CircuitBreaker := operate clock b .recordFailure

/-- After some failures in a row the circuit is open, or they are at the end of its window and
do not trip it. -/
theorem fail_iterate {b : CircuitBreaker} (hs : b.state = .closed)
    (hlen : b.outcomes.length ≤ b.config.rollingWindowSize) (clock : ℚ) (n : ℕ) :
    ((fail clock)^[n] b).state = .open ∨
      ((fail clock)^[n] b).state = .closed ∧ ((fail clock)^[n] b).config = b.config ∧
        ((fail clock)^[n] b).outcomes =
          (b.outcomes ++ List.replicate n false).rtake b.config.rollingWindowSize ∧
        (n ≠ 0 → ¬Trips b.config ((fail clock)^[n] b).outcomes) := by
  induction n with
  | zero => exact .inr ⟨hs, rfl, by simp [rtake_of_length_le hlen], by simp⟩
  | succ n ih =>
    rw [Function.iterate_succ_apply']
    generalize (fail clock)^[n] b = c at ih ⊢
    obtain ho | ⟨hc, hconf, hout, -⟩ := ih
    · exact .inl (by simp [fail, operate, recordFailure, appendOutcome, ho])
    · have happ : (appendOutcome false c).outcomes =
          (b.outcomes ++ List.replicate (n + 1) false).rtake b.config.rollingWindowSize := by
        rw [appendOutcome_outcomes, hout, hconf, push_rtake, List.append_assoc,
          List.replicate_succ']
      rw [fail, operate, recordFailure_closed hc, hconf]
      split_ifs with ht
      · exact .inl rfl
      · exact .inr ⟨hc, hconf, happ, fun _ => ht⟩

theorem fail_iterate_closed {b : CircuitBreaker} (hs : b.state = .closed)
    (hw : (b.config.rollingWindowSize : ℤ) < b.config.minimumRequests) (clock : ℚ) (n : ℕ) :
    ((fail clock)^[n] b).state = .closed ∧ ((fail clock)^[n] b).config = b.config := by
  induction n with
  | zero => exact ⟨hs, rfl⟩
  | succ n ih =>
    rw [Function.iterate_succ_apply']
    generalize (fail clock)^[n] b = c at ih ⊢
    obtain ⟨hc, hconf⟩ := ih
    have hlen := length_push c.config.rollingWindowSize c.outcomes false
    have hnot : ¬Trips c.config (appendOutcome false c).outcomes := by
      intro ht
      have hle := ht.1
      rw [appendOutcome_outcomes, hlen, hconf] at hle
      omega
    rw [fail, operate, recordFailure_closed hc, if_neg hnot]
    exact ⟨hc, hconf⟩

theorem trips_replicate {config : CircuitBreakerConfig} (hθ : config.failureThreshold ≤ 1)
    {n : ℕ} (hpos : 1 ≤ n) (hmin : config.minimumRequests ≤ n) :
    Trips config (List.replicate n false) := by
  have hf : failures (List.replicate n false) = n := by simp [failures, List.countP_replicate]
  have hn : (0 : ℚ) ≤ n := Nat.cast_nonneg n
  refine ⟨by simpa using hmin, by simpa using Nat.pos_of_ne_zero (by omega), ?_⟩
  rw [hf, List.length_replicate]
  calc config.failureThreshold * n ≤ 1 * n := mul_le_mul_of_nonneg_right hθ hn
    _ = n := one_mul _

/-- Failures alone open a closed circuit exactly when its window can hold `minimum_requests`
outcomes. -/
theorem sustained_failure_opens_iff (name : String) (config : CircuitBreakerConfig)
    (hθ : config.failureThreshold ≤ 1) (hmin : 1 ≤ config.minimumRequests)
    (hw : 1 ≤ config.rollingWindowSize) (b : CircuitBreaker)
    (h : Reaches step { name, config } b) (hs : b.state = .closed) (clock : ℚ) :
    ((fail clock)^[max config.minimumRequests.toNat config.rollingWindowSize] b).state = .open ↔
      config.minimumRequests ≤ config.rollingWindowSize := by
  obtain ⟨rfl, hlen⟩ := reaches_window h
  constructor
  · intro ho
    by_contra hlt
    obtain ⟨hc, _⟩ := fail_iterate_closed hs (not_le.mp hlt) clock
      (max b.config.minimumRequests.toNat b.config.rollingWindowSize)
    rw [hc] at ho
    cases ho
  · intro hle
    have hmax : max b.config.minimumRequests.toNat b.config.rollingWindowSize =
        b.config.rollingWindowSize := by omega
    rw [hmax]
    obtain ho | ⟨_, _, hout, hnot⟩ := fail_iterate hs hlen clock b.config.rollingWindowSize
    · exact ho
    -- otherwise the window is full of failures
    · have hfull : (b.outcomes ++ List.replicate b.config.rollingWindowSize false).rtake
          b.config.rollingWindowSize = List.replicate b.config.rollingWindowSize false := by
        simp [List.rtake]
      rw [hout, hfull] at hnot
      exact absurd (trips_replicate hθ hw hle) (hnot (by omega))

def narrow : CircuitBreakerConfig := { minimumRequests := 2, rollingWindowSize := 1 }

theorem three_failures_open :
    ((fail 0)^[3] { name := "users", config := { narrow with rollingWindowSize := 3 } }).state =
      .open :=
  (sustained_failure_opens_iff "users" { narrow with rollingWindowSize := 3 } (by decide +kernel)
    (by decide) (by decide) _ (Reaches.refl _) rfl 0).mpr (by decide)

theorem narrow_window_never_opens :
    narrow.failureThreshold ≤ 1 ∧ 1 ≤ narrow.minimumRequests ∧ 1 ≤ narrow.rollingWindowSize ∧
      ((fail 0)^[max narrow.minimumRequests.toNat narrow.rollingWindowSize]
        { name := "users", config := narrow }).state = .closed := by
  decide +kernel

end Sentinel.TripCondition
