import Sentinel.Callers

namespace Sentinel.HalfOpenSlots

open Breaker Runs Callers

/-- The half-open counter stands for the probes that are really outstanding. -/
def Counted (s : Traffic) : Prop :=
  s.breaker.state = .halfOpen → s.breaker.halfOpenInFlight = live s ∧
    s.breaker.halfOpenInFlight ≤ s.breaker.config.halfOpenMaxRequests

/-- A success of a request admitted before the period gives back a slot it never took. -/
def drifts (s : Traffic) : ℚ × Call → Bool
  | (_, .recordSuccess request) => s.breaker.state = .halfOpen ∧ request ∉ s.probes ∧
      0 < s.breaker.halfOpenInFlight ∧
      s.breaker.halfOpenSuccesses + 1 < s.breaker.config.halfOpenMaxRequests
  | _ => false

theorem observe_counted {s : Traffic} (h : Counted s)
    (hmax : 0 ≤ s.breaker.config.halfOpenMaxRequests) {clock : ℚ}
    (hs : (Breaker.readState clock s.breaker).state = .halfOpen) :
    (Breaker.readState clock s.breaker).halfOpenInFlight = live (observe clock s) ∧
      (Breaker.readState clock s.breaker).halfOpenInFlight ≤
        s.breaker.config.halfOpenMaxRequests := by
  obtain ⟨ho, hr, hob⟩ | ⟨hr, hp, _⟩ := observe_halfOpen hs
  · rw [hr, hob]
    exact h ho
  · rw [hr]
    exact ⟨by simp [transitionToHalfOpen, live, hp], hmax⟩

theorem live_observe_admit {s : Traffic} (hn : Numbered s) (clock : ℚ) :
    (s.next :: s.outstanding).countP (· ∈ s.next :: (observe clock s).probes) =
      live (observe clock s) + 1 := by
  have hfresh : (observe clock s).next ∉ (observe clock s).outstanding := by
    simpa using fun hm => lt_irrefl _ (hn.outstanding_lt _ hm)
  simpa only [observe_next, observe_outstanding] using live_admit hfresh

theorem live_recordSuccess {s : Traffic} {i : ℕ} (hi : i ∈ s.outstanding) (clock : ℚ) :
    live s = live (apply clock s (.recordSuccess i)) + if i ∈ s.probes then 1 else 0 :=
  live_record hi

theorem step_counted {s t : Traffic} {e : ℚ × Call} (hn : Numbered s)
    (hmax : 0 ≤ s.breaker.config.halfOpenMaxRequests) (h : Counted s)
    (hd : ¬ drifts s e) (hs : step s e t) : Counted t := by
  obtain ⟨clock, c⟩ := e
  obtain ⟨-, he, rfl⟩ := step_iff.mp hs
  change Counted (apply clock s c)
  intro ht
  rw [apply_config]
  cases c with
  | readState => exact observe_counted h hmax ht
  | beforeRequest =>
    obtain ⟨hr, ha | ⟨hlt, ha⟩⟩ := beforeRequest_halfOpen ht
    · rw [ha]
      exact observe_counted h hmax hr
    · obtain ⟨hc, _⟩ := observe_counted h hmax hr
      have hl := live_observe_admit hn clock
      rw [ha]
      refine ⟨?_, Int.add_one_le_iff.mpr hlt⟩
      rw [live, hl, hc]
      push_cast
      rfl
  | recordSuccess i =>
    obtain ⟨ho, hlt, hf, _⟩ := recordSuccess_stays_halfOpen ht
    obtain ⟨hc, hle⟩ := h ho
    have hi : i ∈ s.outstanding := by simpa [Call.enabled] using he
    have hl := live_recordSuccess hi clock
    rw [hf]
    by_cases hp : i ∈ s.probes
    · simp only [hp, ↓reduceIte] at hl
      omega
    · simp only [hp, ↓reduceIte] at hl
      have hz : ¬ 0 < s.breaker.halfOpenInFlight :=
        fun hpos => hd (by simp [drifts, ho, hp, hpos, hlt])
      omega
  | recordFailure i => exact absurd ht (recordFailure_not_halfOpen clock s i)

theorem reaches_counted {name : String} {config : CircuitBreakerConfig} {clock : ℚ} {s : Traffic}
    (hmax : 0 ≤ config.halfOpenMaxRequests)
    (h : Reaches (Guarded (fun s e => ¬ drifts s e) step) (init name config clock) s) :
    s.breaker.config = config ∧ Numbered s ∧ Counted s := by
  refine h.invariant (I := fun s => s.breaker.config = config ∧ Numbered s ∧ Counted s)
    ?_ ⟨rfl, init_numbered name config clock, fun hs => by cases hs⟩
  rintro s e t ⟨hc, hn, hk⟩ ⟨hd, hs⟩
  refine ⟨?_, step_numbered hn hs, step_counted hn (hc ▸ hmax) hk hd hs⟩
  obtain ⟨-, -, rfl⟩ := step_iff.mp hs
  rw [apply_config, hc]

/-- At most `half_open_max_requests` probes are outstanding in `HALF_OPEN`, in every run in
which no request admitted earlier gives back a slot of the current period. -/
theorem live_le_halfOpenMaxRequests (name : String) (config : CircuitBreakerConfig) (clock : ℚ)
    (hmax : 0 ≤ config.halfOpenMaxRequests) (s : Traffic)
    (h : Reaches (Guarded (fun s e => ¬ drifts s e) step) (init name config clock) s)
    (hs : s.breaker.state = .halfOpen) : (live s : ℤ) ≤ config.halfOpenMaxRequests := by
  obtain ⟨hc, _, hk⟩ := reaches_counted hmax h
  obtain ⟨he, hle⟩ := hk hs
  rw [← he, ← hc]
  exact hle

def lateSuccess : List (ℚ × Call) :=
  tripped ++ [(2, .beforeRequest), (2, .beforeRequest), (2, .recordSuccess 0), (2, .beforeRequest)]

theorem live_le_at_two_probes :
    ∃ s, Reaches (Guarded (fun s e => ¬ drifts s e) step) (init "users" twoProbes 0) s ∧
      s.breaker.state = .halfOpen ∧ live s = 2 ∧ (live s : ℤ) ≤ twoProbes.halfOpenMaxRequests := by
  obtain ⟨s, hr, hs⟩ := Reaches.of_guarded_check (fun s e => ¬ drifts s e) next
    (fun s => s.breaker.state = .halfOpen ∧ live s = 2) (init "users" twoProbes 0)
    (tripped ++ [(2, .beforeRequest), (2, .beforeRequest)]) (by decide +kernel)
  simp only [decide_eq_true_eq] at hs
  exact ⟨s, hr, hs.1, hs.2,
    live_le_halfOpenMaxRequests "users" twoProbes 0 (by decide) s hr hs.1⟩

/-- The late success of request 0 lowers the counter, and a third probe joins the two running. -/
theorem live_exceeds_after_late_success :
    ∃ s, Reaches step (init "users" twoProbes 0) s ∧
      s.breaker.state = .halfOpen ∧ twoProbes.halfOpenMaxRequests < live s := by
  obtain ⟨s, hr, hs⟩ := Reaches.of_check next
    (fun s => s.breaker.state = .halfOpen ∧ twoProbes.halfOpenMaxRequests < live s)
    (init "users" twoProbes 0) lateSuccess (by decide +kernel)
  simp only [decide_eq_true_eq] at hs
  exact ⟨s, hr, hs⟩

def Covered (s : Traffic) : Prop :=
  s.breaker.state = .halfOpen → s.breaker.halfOpenInFlight ≤ live s

theorem observe_covered {s : Traffic} (h : Covered s) {clock : ℚ}
    (hs : (Breaker.readState clock s.breaker).state = .halfOpen) :
    (Breaker.readState clock s.breaker).halfOpenInFlight ≤ live (observe clock s) := by
  obtain ⟨ho, hr, hob⟩ | ⟨hr, hp, _⟩ := observe_halfOpen hs
  · rw [hr, hob]
    exact h ho
  · rw [hr]
    simp [transitionToHalfOpen]

theorem step_covered {s t : Traffic} {e : ℚ × Call} (hn : Numbered s) (h : Covered s)
    (hs : step s e t) : Covered t := by
  obtain ⟨clock, c⟩ := e
  obtain ⟨-, he, rfl⟩ := step_iff.mp hs
  change Covered (apply clock s c)
  intro ht
  cases c with
  | readState => exact observe_covered h ht
  | beforeRequest =>
    obtain ⟨hr, ha | ⟨_, ha⟩⟩ := beforeRequest_halfOpen ht
    · rw [ha]
      exact observe_covered h hr
    · have hc := observe_covered h hr
      have hl := live_observe_admit hn clock
      rw [ha]
      rw [live, hl]
      push_cast
      exact Int.add_le_add_right hc 1
  | recordSuccess i =>
    obtain ⟨ho, _, hf, _⟩ := recordSuccess_stays_halfOpen ht
    have hc := h ho
    have hi : i ∈ s.outstanding := by simpa [Call.enabled] using he
    have hl := live_recordSuccess hi clock
    rw [hf]
    split_ifs at hl <;> omega
  | recordFailure i => exact absurd ht (recordFailure_not_halfOpen clock s i)

theorem reaches_covered {name : String} {config : CircuitBreakerConfig} {clock : ℚ} {s : Traffic}
    (h : Reaches step (init name config clock) s) : s.breaker.config = config ∧ Covered s := by
  have hinv := h.invariant
    (I := fun s => s.breaker.config = config ∧ Numbered s ∧ Covered s) ?_
    ⟨rfl, init_numbered name config clock, fun hs => by cases hs⟩
  · exact ⟨hinv.1, hinv.2.2⟩
  rintro s e t ⟨hc, hn, hk⟩ hs
  refine ⟨?_, step_numbered hn hs, step_covered hn hk hs⟩
  obtain ⟨-, -, rfl⟩ := step_iff.mp hs
  rw [apply_config, hc]

/-- Matched requests cannot wedge the breaker: the counter is at most the number of probes still
running, so with none running the next `before_request` is admitted. -/
theorem slots_never_overcount (name : String) (config : CircuitBreakerConfig) (clock : ℚ)
    (hmax : 1 ≤ config.halfOpenMaxRequests) (s : Traffic)
    (h : Reaches step (init name config clock) s) (hs : s.breaker.state = .halfOpen) :
    s.breaker.halfOpenInFlight ≤ live s ∧
      (live s = 0 → ∀ now, s.now ≤ now → (Breaker.beforeRequest now s.breaker).2 = .ok ()) := by
  obtain ⟨hc, hk⟩ := reaches_covered h
  refine ⟨hk hs, fun hlive now _ => ?_⟩
  have hle := hk hs
  rw [hlive, Nat.cast_zero] at hle
  have hr : readState now s.breaker = s.breaker := readState_of_ne_open (by simp [hs])
  obtain ⟨_, _, ho | ⟨_, hfull⟩⟩ | ⟨hok, _⟩ | ⟨hok, _⟩ := beforeRequest_cases now s.breaker
  · rw [hr, hs] at ho
    cases ho
  · rw [hr, hc] at hfull
    omega
  · exact hok
  · exact hok

theorem slots_free_after_probe :
    ∃ s, Reaches step (init "users" twoProbes 0) s ∧ s.breaker.state = .halfOpen ∧ live s = 0 ∧
      (Breaker.beforeRequest 2 s.breaker).2 = .ok () := by
  obtain ⟨s, hr, hs⟩ := Reaches.of_check next
    (fun s => s.breaker.state = .halfOpen ∧ live s = 0 ∧ s.now ≤ 2) (init "users" twoProbes 0)
    (tripped ++ [(2, .beforeRequest), (2, .recordSuccess 3)]) (by decide +kernel)
  simp only [decide_eq_true_eq] at hs
  obtain ⟨hh, hl, hn⟩ := hs
  exact ⟨s, hr, hh, hl,
    (slots_never_overcount "users" twoProbes 0 (by decide) s hr hh).2 hl 2 hn⟩

end Sentinel.HalfOpenSlots
