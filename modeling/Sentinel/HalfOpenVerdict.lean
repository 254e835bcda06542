import Sentinel.Callers

namespace Sentinel.HalfOpenVerdict

open Breaker Runs Callers

/-- An outcome recorded in `HALF_OPEN` by a request admitted before the period. -/
def foreign (s : Traffic) : ℚ × Call → Bool
  | (_, .recordSuccess request) | (_, .recordFailure request) =>
    s.breaker.state = .halfOpen ∧ request ∉ s.probes
  | _ => false

/-- How a `HALF_OPEN` period may end: closed by enough successes of its own probes,
reopened by the failure of one of them, and by nothing else. -/
def DecidedByProbes (s : Traffic) (c : Call) (t : Traffic) : Prop :=
  s.breaker.state = .halfOpen →
    (t.breaker.state = .closed → (∃ i ∈ s.probes, c = .recordSuccess i) ∧ t.passed.Nodup ∧
      t.passed ⊆ s.probes ∧ s.breaker.config.halfOpenMaxRequests ≤ t.passed.length) ∧
    (t.breaker.state = .open → ∃ i ∈ s.probes, c = .recordFailure i) ∧
    (∀ i ∉ s.probes, c = .recordSuccess i ∨ c = .recordFailure i →
      t.breaker.state = s.breaker.state)

def Tallied (s : Traffic) : Prop :=
  s.breaker.state = .halfOpen → s.breaker.halfOpenSuccesses = s.passed.length

theorem observe_tallied {s : Traffic} (h : Tallied s) {clock : ℚ}
    (hs : (Breaker.readState clock s.breaker).state = .halfOpen) :
    (Breaker.readState clock s.breaker).halfOpenSuccesses = (observe clock s).passed.length := by
  obtain ⟨ho, hr, hob⟩ | ⟨hr, _, hp⟩ := observe_halfOpen hs
  · rw [hr, hob]
    exact h ho
  · rw [hr, hp]
    rfl

theorem step_tallied {s t : Traffic} {e : ℚ × Call} (h : Tallied s)
    (hf : ¬ foreign s e) (hs : step s e t) : Tallied t := by
  obtain ⟨clock, c⟩ := e
  obtain ⟨-, -, rfl⟩ := step_iff.mp hs
  intro ht
  cases c with
  | readState => exact observe_tallied h ht
  | beforeRequest =>
    obtain ⟨hr, ha | ⟨_, ha⟩⟩ := beforeRequest_halfOpen ht <;> rw [ha] <;>
      exact observe_tallied h hr
  | recordSuccess i =>
    obtain ⟨ho, _, _, hn⟩ := recordSuccess_stays_halfOpen ht
    have hp : i ∈ s.probes := by
      by_contra hp
      exact hf (by simp [foreign, ho, hp])
    have hl : (apply clock s (.recordSuccess i)).passed = i :: s.passed := by simp [apply, hp]
    have hb : (apply clock s (.recordSuccess i)).breaker.halfOpenSuccesses =
        s.breaker.halfOpenSuccesses + 1 := hn
    rw [hl, hb, h ho]
    simp
  | recordFailure i => exact absurd ht (recordFailure_not_halfOpen clock s i)

theorem step_decidedByProbes {s t : Traffic} {e : ℚ × Call} (hn : Numbered s) (h : Tallied s)
    (hf : ¬ foreign s e) (hs : step s e t) : DecidedByProbes s e.2 t := by
  have hnt := step_numbered hn hs
  obtain ⟨clock, c⟩ := e
  obtain ⟨-, -, rfl⟩ := step_iff.mp hs
  intro ho
  have hread : Breaker.readState clock s.breaker = s.breaker := readState_of_ne_open (by simp [ho])
  cases c with
  | readState => simp [apply, hread, ho]
  | beforeRequest =>
    have hb : (apply clock s .beforeRequest).breaker.state = .halfOpen := by
      obtain ⟨⟨_, hr⟩, hb, _⟩ | ⟨hr, _, _, hb⟩ | ⟨hr, _, hb⟩ :=
        beforeRequest_cases clock s.breaker <;> simp [apply, hr, hb, hread, ho]
    simp [hb, ho]
  | recordSuccess i =>
    have hp : i ∈ s.probes := by
      by_contra hp
      exact hf (by simp [foreign, ho, hp])
    have hl : (apply clock s (.recordSuccess i)).passed = i :: s.passed := by simp [apply, hp]
    refine ⟨fun hc => ⟨⟨i, hp, rfl⟩, hnt.passed_nodup, hnt.passed_subset, ?_⟩, fun hc => ?_, ?_⟩
    · obtain ⟨hle, _⟩ | ⟨_, hst, _⟩ := recordSuccess_halfOpen ho
      · rw [hl, List.length_cons]
        have := h ho
        push_cast
        omega
      · rw [show (apply clock s (.recordSuccess i)).breaker.state = .halfOpen from hst] at hc
        cases hc
    · have hc' : (Breaker.recordSuccess s.breaker).state = .open := hc
      obtain ⟨_, hst⟩ | ⟨_, hst, _⟩ := recordSuccess_halfOpen ho <;> rw [hst] at hc' <;> cases hc'
    · rintro j hj (he | he) <;> cases he
      exact absurd hp hj
  | recordFailure i =>
    have hp : i ∈ s.probes := by
      by_contra hp
      exact hf (by simp [foreign, ho, hp])
    have hst : (apply clock s (.recordFailure i)).breaker.state = .open := by
      obtain ⟨hne, _⟩ | ⟨_, hb⟩ := recordFailure_cases clock s.breaker
      · exact absurd ho hne
      · exact congrArg CircuitBreaker.state hb
    refine ⟨fun hc => ?_, fun _ => ⟨i, hp, rfl⟩, ?_⟩
    · rw [hst] at hc
      cases hc
    · rintro j hj (he | he) <;> cases he
      exact absurd hp hj

/-- In every run in which, while the breaker is `HALF_OPEN`, only requests admitted in the
current period record an outcome, every such period is decided by its own probes. -/
theorem halfOpen_decided_by_probes (name : String) (config : CircuitBreakerConfig) (clock : ℚ)
    (s t : Traffic) (e : ℚ × Call)
    (h : Reaches (Guarded (fun s e => ¬ foreign s e) step) (init name config clock) s)
    (he : Guarded (fun s e => ¬ foreign s e) step s e t) : DecidedByProbes s e.2 t := by
  have hi : Numbered s ∧ Tallied s := by
    refine h.invariant (I := fun s => Numbered s ∧ Tallied s) ?_
      ⟨init_numbered name config clock, fun hs => by cases hs⟩
    rintro s e t ⟨hn, ht⟩ ⟨hf, hs⟩
    exact ⟨step_numbered hn hs, step_tallied ht hf hs⟩
  exact step_decidedByProbes hi.1 hi.2 he.1 he.2

theorem decided_by_two_probes :
    ∃ s t : Traffic, s.breaker.state = .halfOpen ∧ t.breaker.state = .closed ∧
      0 ∈ s.outstanding ∧ DecidedByProbes s (.recordSuccess 4) t := by
  obtain ⟨s, hr, hs⟩ := Reaches.of_guarded_check (fun s e => ¬ foreign s e) next
    (fun s => s.breaker.state = .halfOpen ∧ 0 ∈ s.outstanding ∧
      ¬ foreign s (2, .recordSuccess 4) ∧
      (next s (2, .recordSuccess 4)).any (fun t => t.breaker.state = .closed))
    (init "users" twoProbes 0)
    (tripped ++ [(2, .beforeRequest), (2, .beforeRequest), (2, .recordSuccess 3)])
    (by decide +kernel)
  simp only [decide_eq_true_eq] at hs
  obtain ⟨ho, h0, hf, hn⟩ := hs
  obtain ⟨t, ht, hc⟩ := (Option.any_eq_true _ _).mp hn
  exact ⟨s, t, ho, by simpa using hc, h0,
    halfOpen_decided_by_probes "users" twoProbes 0 s t (2, .recordSuccess 4) hr ⟨hf, ht⟩⟩

/-- Request 0, admitted while the circuit was closed, reopens it in a period it is no probe of. -/
theorem late_failure_reopens :
    ∃ s t : Traffic, Reaches step (init "users" twoProbes 0) s ∧
      step s (2, .recordFailure 0) t ∧ ¬ DecidedByProbes s (.recordFailure 0) t := by
  obtain ⟨s, hr, hs⟩ := Reaches.of_check next
    (fun s => s.breaker.state = .halfOpen ∧ 0 ∉ s.probes ∧
      (next s (2, .recordFailure 0)).any (fun t => t.breaker.state = .open))
    (init "users" twoProbes 0) (tripped ++ [(2, .readState)]) (by decide +kernel)
  simp only [decide_eq_true_eq] at hs
  obtain ⟨ho, h0, hn⟩ := hs
  obtain ⟨t, ht, hc⟩ := (Option.any_eq_true _ _).mp hn
  refine ⟨s, t, hr, ht, fun hd => ?_⟩
  obtain ⟨i, hi, he⟩ := (hd ho).2.1 (by simpa using hc)
  cases he
  exact h0 hi

end Sentinel.HalfOpenVerdict
