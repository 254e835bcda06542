import Sentinel.Callers
import Sentinel.Operations

namespace Sentinel.Observation

open Breaker Runs Callers
open Operations (Op operate)

variable {clock t : ℚ} {b b' : CircuitBreaker}

def op : Call → Op
  | .readState => .readState
  | .beforeRequest => .beforeRequest
  | .recordSuccess _ => .recordSuccess
  | .recordFailure _ => .recordFailure

def result (clock : ℚ) (b : CircuitBreaker) : Call → List (Except BreakerError Unit)
  | .beforeRequest => [(Breaker.beforeRequest clock b).2]
  | _ => []

def results (b : CircuitBreaker) : List (ℚ × Call) → List (Except BreakerError Unit)
  | [] => []
  | (clock, c) :: es => result clock b c ++ results (operate clock b (op c)) es

def isRead (e : ℚ × Call) : Bool := e.2 = .readState

/-- `watched` is the run `es` with reads of the state put in, its clock still never going back. -/
def Watched (clock : ℚ) (es watched : List (ℚ × Call)) : Prop :=
  watched.filter (fun e => !isRead e) = es ∧ (clock :: watched.map Prod.fst).Pairwise (· ≤ ·)

instance (clock : ℚ) (es watched : List (ℚ × Call)) : Decidable (Watched clock es watched) :=
  inferInstanceAs (Decidable (_ ∧ _))

/-- An outcome is recorded after `open_duration` has passed and before anyone looked. -/
def unnoticed (s : Traffic) : ℚ × Call → Bool
  | (clock, .recordSuccess _) | (clock, .recordFailure _) => periodBegins clock s.breaker
  | _ => false

theorem apply_breaker (clock : ℚ) (s : Traffic) (c : Call) :
    (apply clock s c).breaker = operate clock s.breaker (op c) := by
  cases c with
  | beforeRequest =>
    simp only [apply, op, operate]
    cases (Breaker.beforeRequest clock s.breaker).2 <;> rfl
  | readState | recordSuccess i | recordFailure i => rfl

theorem periodBegins_iff :
    periodBegins clock b = true ↔ b.state = .open ∧
      ∃ openedAt, b.openedAt = some openedAt ∧
        openedAt + b.config.openDurationSeconds ≤ clock := by
  simp only [periodBegins, Bool.and_eq_true, decide_eq_true_eq]
  refine and_congr_right fun hs => ?_
  constructor
  · intro hr
    obtain h | ⟨openedAt, _, ho, hle, _⟩ := readState_cases clock b
    · rw [h, hs] at hr
      cases hr
    · exact ⟨openedAt, ho, hle⟩
  · rintro ⟨openedAt, ho, hle⟩
    simp [readState, hs, ho, le_sub_iff_add_le', hle, transitionToHalfOpen]

theorem periodBegins_mono (h : periodBegins t b = true) (hle : t ≤ clock) :
    periodBegins clock b = true := by
  rw [periodBegins_iff] at h ⊢
  obtain ⟨hs, openedAt, ho, hdue⟩ := h
  exact ⟨hs, openedAt, ho, hdue.trans hle⟩

theorem readState_of_periodBegins (h : periodBegins clock b = true) :
    readState clock b = transitionToHalfOpen b := by
  obtain hr | ⟨_, _, _, _, hr⟩ := readState_cases clock b
  · simp [periodBegins, hr] at h
    simp [h.1] at h
  · exact hr

def Ahead (t : ℚ) (b b' : CircuitBreaker) : Prop :=
  b' = b ∨ periodBegins t b = true ∧ b' = transitionToHalfOpen b

theorem Ahead.readState (h : Ahead t b b') (hle : t ≤ clock) :
    Ahead clock b (readState clock b') := by
  obtain rfl | ⟨hp, rfl⟩ := h
  · obtain hr | ⟨openedAt, hs, ho, hdue, hr⟩ := readState_cases clock b'
    · exact .inl hr
    · exact .inr ⟨periodBegins_iff.mpr ⟨hs, openedAt, ho, hdue⟩, hr⟩
  · have hr : Breaker.readState clock (transitionToHalfOpen b) = transitionToHalfOpen b :=
      readState_of_ne_open (by simp [transitionToHalfOpen])
    exact .inr ⟨periodBegins_mono hp hle, hr⟩

theorem Ahead.readState_eq (h : Ahead t b b') (hle : t ≤ clock) :
    Breaker.readState clock b' = Breaker.readState clock b := by
  obtain rfl | ⟨hp, rfl⟩ := h
  · rfl
  · rw [readState_of_periodBegins (periodBegins_mono hp hle)]
    exact readState_of_ne_open (by simp [transitionToHalfOpen])

theorem Ahead.beforeRequest_eq (h : Ahead t b b') (hle : t ≤ clock) :
    Breaker.beforeRequest clock b' = Breaker.beforeRequest clock b := by
  simp only [Breaker.beforeRequest, h.readState_eq hle]

theorem Ahead.eq_of_noticed (h : Ahead t b b') (hle : t ≤ clock)
    (hn : periodBegins clock b ≠ true) : b' = b := by
  obtain rfl | ⟨hp, -⟩ := h
  · rfl
  · exact absurd (periodBegins_mono hp hle) hn

/-- The two runs give the same results: a read is a step of the watched run alone, every other
call is made by both, and a record finds the same breaker in both. -/
theorem Ahead.results_eq {s u : Traffic} (h : Ahead t s.breaker b') (watched : List (ℚ × Call))
    (hclock : (t :: watched.map Prod.fst).Pairwise (· ≤ ·))
    (hrun : Trace (Guarded (fun s e => unnoticed s e = false) step) s
      (watched.filter (fun e => !isRead e)) u) :
    results b' watched = results s.breaker (watched.filter (fun e => !isRead e)) := by
  induction watched generalizing s b' t with
  | nil => rfl
  | cons e watched ih =>
    obtain ⟨clock, c⟩ := e
    rw [List.map_cons, List.pairwise_cons] at hclock
    have hle : t ≤ clock := hclock.1 clock (List.mem_cons_self ..)
    by_cases hc : c = .readState
    · subst hc
      have hkept : ((clock, Call.readState) :: watched).filter (fun e => !isRead e) =
          watched.filter (fun e => !isRead e) := rfl
      rw [hkept] at hrun ⊢
      exact ih (h.readState hle) hclock.2 hrun
    · have hkept : ((clock, c) :: watched).filter (fun e => !isRead e) =
          (clock, c) :: watched.filter (fun e => !isRead e) := by
        simp [isRead, hc]
      rw [hkept] at hrun ⊢
      cases hrun with
      | cons hstep htail =>
        obtain ⟨hok, hs⟩ := hstep
        obtain ⟨-, -, rfl⟩ := step_iff.mp hs
        have hsame : result clock b' c = result clock s.breaker c ∧
            operate clock b' (op c) = operate clock s.breaker (op c) := by
          cases c with
          | readState => exact absurd rfl hc
          | beforeRequest =>
            have he := h.beforeRequest_eq hle
            simp only [result, op, operate, he, and_self]
          | recordSuccess i | recordFailure i =>
            have he := h.eq_of_noticed hle (by simpa [unnoticed] using hok)
            subst he
            exact ⟨rfl, rfl⟩
        have hnext : Ahead clock (apply clock s c).breaker (operate clock b' (op c)) :=
          .inl (by rw [apply_breaker, hsame.2])
        rw [results, results, hsame.1, ih hnext hclock.2 htail, apply_breaker]

/-- Reads of the state do not show in the results of `before_request`, in every run in which no
outcome is recorded between the end of `open_duration` and the next look at the state. -/
theorem results_of_watched (name : String) (config : CircuitBreakerConfig) (clock : ℚ)
    (es watched : List (ℚ × Call)) (s : Traffic)
    (h : Trace (Guarded (fun s e => unnoticed s e = false) step) (init name config clock) es s)
    (hw : Watched clock es watched) :
    results { name, config } watched = results { name, config } es := by
  obtain ⟨rfl, hclock⟩ := hw
  exact Ahead.results_eq (s := init name config clock) (.inl rfl) watched hclock h

def recovered : List (ℚ × Call) :=
  tripped ++ [(2, .beforeRequest), (2, .recordSuccess 0), (2, .recordSuccess 3)]

theorem results_of_watched_recovery :
    results { name := "users", config := twoProbes }
        (tripped ++ [(1, .readState), (2, .readState), (2, .beforeRequest), (2, .recordSuccess 0),
          (2, .recordSuccess 3), (3, .readState)]) =
      results { name := "users", config := twoProbes } recovered := by
  obtain ⟨s, h, -⟩ := Trace.of_guarded_check (fun s e => unnoticed s e = false) next
    (fun s => s.outstanding = []) (init "users" twoProbes 0) recovered (by decide +kernel)
  exact results_of_watched "users" twoProbes 0 recovered _ s h (by decide +kernel)

def overdue : List (ℚ × Call) :=
  tripped ++ [(2, .recordFailure 0), (2, .beforeRequest), (2, .recordSuccess 3)]

theorem read_changes_admission :
    (∃ s, Trace step (init "users" twoProbes 0) overdue s ∧ s.outstanding = []) ∧
    ∃ watched, Watched 0 overdue watched ∧
      results { name := "users", config := twoProbes } watched ≠
        results { name := "users", config := twoProbes } overdue := by
  refine ⟨?_, tripped ++ [(2, .readState), (2, .recordFailure 0), (2, .beforeRequest),
    (2, .recordSuccess 3)], by decide +kernel, by decide +kernel⟩
  obtain ⟨s, h, hs⟩ := Trace.of_check next (fun s => s.outstanding = [])
    (init "users" twoProbes 0) overdue (by decide +kernel)
  exact ⟨s, h, by simpa using hs⟩

end Sentinel.Observation
