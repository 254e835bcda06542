import Sentinel.Breaker
import Sentinel.Runs

namespace Sentinel.Callers

open Breaker Runs

/-- A breaker together with the requests of its concurrent callers. Requests are
numbered in the order of their `before_request`; `probes` are those admitted since
the current `HALF_OPEN` period began and `passed` those of them that recorded a success. -/
structure Traffic where
  breaker : CircuitBreaker
  now : ℚ
  next : ℕ := 0
  outstanding : List ℕ := []
  probes : List ℕ := []
  passed : List ℕ := []
  deriving DecidableEq

inductive Call
  | readState
  | beforeRequest
  | recordSuccess (request : ℕ)
  | recordFailure (request : ℕ)
  deriving DecidableEq

def periodBegins (clock : ℚ) (b : CircuitBreaker) : Bool :=
  b.state = .open && (readState clock b).state = .halfOpen

def observe (clock : ℚ) (s : Traffic) : Traffic :=
  if periodBegins clock s.breaker then { s with probes := [], passed := [] } else s

def apply (clock : ℚ) (s : Traffic) : Call → Traffic
  | .readState =>
    { observe clock s with breaker := Breaker.readState clock s.breaker, now := clock }
  | .beforeRequest =>
    let request := s.next
    let r := Breaker.beforeRequest clock s.breaker
    let s := { observe clock s with breaker := r.1, now := clock, next := request + 1 }
    match r.2 with
    | .ok () => { s with outstanding := request :: s.outstanding, probes := request :: s.probes }
    | .error _ => s
  | .recordSuccess request =>
    { s with
      breaker := Breaker.recordSuccess s.breaker
      now := clock
      outstanding := s.outstanding.erase request
      passed := if request ∈ s.probes then request :: s.passed else s.passed }
  | .recordFailure request =>
    { s with
      breaker := (Breaker.recordFailure clock s.breaker).1
      now := clock
      outstanding := s.outstanding.erase request }

/-- A request records its outcome only while it is outstanding, hence exactly once. -/
def Call.enabled (s : Traffic) : Call → Bool
  | .readState | .beforeRequest => true
  | .recordSuccess request | .recordFailure request => request ∈ s.outstanding

/-- One call at a clock reading not before the previous one. -/
def next (s : Traffic) (e : ℚ × Call) : Option Traffic :=
  if s.now ≤ e.1 ∧ e.2.enabled s then some (apply e.1 s e.2) else none

def step (s : Traffic) (e : ℚ × Call) (t : Traffic) : Prop := next s e = some t

def init (name : String) (config : CircuitBreakerConfig) (clock : ℚ) : Traffic :=
  { breaker := { name, config }, now := clock }

theorem step_iff {s t : Traffic} {e : ℚ × Call} :
    step s e t ↔ s.now ≤ e.1 ∧ e.2.enabled s ∧ t = apply e.1 s e.2 := by
  unfold step next
  split_ifs with h
  · simp [h.1, h.2, eq_comm]
  · simp only [false_iff]
    exact fun ⟨h₁, h₂, _⟩ => h ⟨h₁, h₂⟩

def live (s : Traffic) : ℕ := s.outstanding.countP (· ∈ s.probes)

structure Numbered (s : Traffic) : Prop where
  outstanding_lt : ∀ i ∈ s.outstanding, i < s.next
  probes_lt : ∀ i ∈ s.probes, i < s.next
  nodup : s.outstanding.Nodup
  passed_nodup : s.passed.Nodup
  passed_subset : s.passed ⊆ s.probes
  passed_done : ∀ i ∈ s.passed, i ∉ s.outstanding

theorem init_numbered (name : String) (config : CircuitBreakerConfig) (clock : ℚ) :
    Numbered (init name config clock) := by
  constructor <;> simp [init]

theorem observe_numbered {s : Traffic} (h : Numbered s) (clock : ℚ) :
    Numbered (observe clock s) := by
  unfold observe
  split
  · exact ⟨h.1, by simp, h.3, by simp, by simp, by simp⟩
  · exact h

@[simp] theorem observe_next (clock : ℚ) (s : Traffic) : (observe clock s).next = s.next := by
  unfold observe; split <;> rfl

@[simp] theorem observe_outstanding (clock : ℚ) (s : Traffic) :
    (observe clock s).outstanding = s.outstanding := by
  unfold observe; split <;> rfl

theorem beforeRequest_numbered {s : Traffic} (h : Numbered s) (clock : ℚ) :
    Numbered (apply clock s .beforeRequest) := by
  obtain ⟨h₁, h₂, h₃, h₄, h₅, h₆⟩ := observe_numbered h clock
  simp only [observe_next, observe_outstanding] at h₁ h₂ h₃ h₆
  have hfresh : ∀ l : List ℕ, (∀ i ∈ l, i < s.next) → s.next ∉ l :=
    fun l hl hm => lt_irrefl _ (hl _ hm)
  simp only [apply]
  cases (Breaker.beforeRequest clock s.breaker).2 with
  | error e =>
    refine ⟨?_, ?_, ?_, h₄, h₅, ?_⟩ <;> simp only [observe_outstanding]
    · exact fun i hi => (h₁ i hi).trans (Nat.lt_succ_self _)
    · exact fun i hi => (h₂ i hi).trans (Nat.lt_succ_self _)
    · exact h₃
    · exact h₆
  | ok u =>
    refine ⟨?_, ?_, ?_, h₄, ?_, ?_⟩ <;> simp only [observe_outstanding]
    · intro i hi
      obtain rfl | hi := List.mem_cons.mp hi
      · exact Nat.lt_succ_self _
      · exact (h₁ i hi).trans (Nat.lt_succ_self _)
    · intro i hi
      obtain rfl | hi := List.mem_cons.mp hi
      · exact Nat.lt_succ_self _
      · exact (h₂ i hi).trans (Nat.lt_succ_self _)
    · exact List.nodup_cons.mpr ⟨hfresh _ h₁, h₃⟩
    · exact fun i hi => List.mem_cons_of_mem _ (h₅ hi)
    · intro i hi hm
      obtain rfl | hm := List.mem_cons.mp hm
      · exact hfresh _ h₂ (h₅ hi)
      · exact h₆ i hi hm

theorem step_numbered {s t : Traffic} {e : ℚ × Call} (h : Numbered s) (hs : step s e t) :
    Numbered t := by
  obtain ⟨clock, c⟩ := e
  obtain ⟨-, he, rfl⟩ := step_iff.mp hs
  cases c with
  | readState =>
    obtain ⟨h₁, h₂, h₃, h₄, h₅, h₆⟩ := observe_numbered h clock
    exact ⟨h₁, h₂, h₃, h₄, h₅, h₆⟩
  | beforeRequest => exact beforeRequest_numbered h clock
  | recordSuccess i =>
    have hi : i ∈ s.outstanding := by simpa [Call.enabled] using he
    have hp : i ∉ s.passed := fun hm => h.passed_done i hm hi
    refine ⟨fun j hj => h.1 j (List.mem_of_mem_erase hj), h.2, h.3.erase i, ?_, ?_, ?_⟩
    · simp only [apply]
      split_ifs
      · exact List.nodup_cons.mpr ⟨hp, h.4⟩
      · exact h.4
    · simp only [apply]
      split_ifs with hm
      · exact List.cons_subset.mpr ⟨hm, h.5⟩
      · exact h.5
    · intro j hj hm
      simp only [apply] at hj hm
      rw [h.3.mem_erase_iff] at hm
      split_ifs at hj
      · exact h.6 j ((List.mem_cons.mp hj).resolve_left hm.1) hm.2
      · exact h.6 j hj hm.2
  | recordFailure i =>
    exact ⟨fun j hj => h.1 j (List.mem_of_mem_erase hj), h.2, h.3.erase i, h.4, h.5,
      fun j hj hm => h.6 j hj (List.mem_of_mem_erase hm)⟩

theorem observe_halfOpen {clock : ℚ} {s : Traffic}
    (h : (Breaker.readState clock s.breaker).state = .halfOpen) :
    (s.breaker.state = .halfOpen ∧ Breaker.readState clock s.breaker = s.breaker ∧
      observe clock s = s) ∨
    (Breaker.readState clock s.breaker = transitionToHalfOpen s.breaker ∧
      (observe clock s).probes = [] ∧ (observe clock s).passed = []) := by
  obtain hr | ⟨_, ho, _, _, hr⟩ := readState_cases clock s.breaker
  · have hs : s.breaker.state = .halfOpen := by rw [← hr]; exact h
    exact .inl ⟨hs, hr, by simp [observe, periodBegins, hs]⟩
  · have hb : periodBegins clock s.breaker = true := by simp [periodBegins, ho, h]
    exact .inr ⟨hr, by simp [observe, hb], by simp [observe, hb]⟩

theorem beforeRequest_halfOpen {clock : ℚ} {s : Traffic}
    (h : (apply clock s .beforeRequest).breaker.state = .halfOpen) :
    (Breaker.readState clock s.breaker).state = .halfOpen ∧
      ((apply clock s .beforeRequest = { observe clock s with
          breaker := Breaker.readState clock s.breaker, now := clock, next := s.next + 1 }) ∨
        ((Breaker.readState clock s.breaker).halfOpenInFlight <
          s.breaker.config.halfOpenMaxRequests ∧
        apply clock s .beforeRequest = { observe clock s with
          breaker := { Breaker.readState clock s.breaker with halfOpenInFlight :=
            (Breaker.readState clock s.breaker).halfOpenInFlight + 1 }
          now := clock
          next := s.next + 1
          outstanding := s.next :: s.outstanding
          probes := s.next :: (observe clock s).probes })) := by
  obtain ⟨⟨e, he⟩, hb, _⟩ | ⟨he, hs, hlt, hb⟩ | ⟨he, hs, hb⟩ := beforeRequest_cases clock s.breaker
  · have ha : apply clock s .beforeRequest = { observe clock s with
        breaker := Breaker.readState clock s.breaker, now := clock, next := s.next + 1 } := by
      simp [apply, he, hb]
    refine ⟨?_, .inl ha⟩
    rw [ha] at h
    exact h
  · exact ⟨hs, .inr ⟨hlt, by simp [apply, he, hb]⟩⟩
  · rw [apply, he, hb] at h
    simp [hs] at h

theorem recordFailure_not_halfOpen (clock : ℚ) (s : Traffic) (i : ℕ) :
    (apply clock s (.recordFailure i)).breaker.state ≠ .halfOpen := by
  obtain ⟨hs, h⟩ | ⟨_, h⟩ := recordFailure_cases clock s.breaker
  · simpa [apply, h, appendOutcome] using hs
  · simp [apply, h, transitionToOpen]

theorem recordSuccess_stays_halfOpen {clock : ℚ} {s : Traffic} {i : ℕ}
    (h : (apply clock s (.recordSuccess i)).breaker.state = .halfOpen) :
    s.breaker.state = .halfOpen ∧
      s.breaker.halfOpenSuccesses + 1 < s.breaker.config.halfOpenMaxRequests ∧
      (apply clock s (.recordSuccess i)).breaker.halfOpenInFlight =
        max 0 (s.breaker.halfOpenInFlight - 1) ∧
      (apply clock s (.recordSuccess i)).breaker.halfOpenSuccesses =
        s.breaker.halfOpenSuccesses + 1 := by
  have h' : (Breaker.recordSuccess s.breaker).state = .halfOpen := h
  by_cases hs : s.breaker.state = .halfOpen
  · obtain ⟨_, hc⟩ | ⟨hlt, _, hf, hn⟩ := recordSuccess_halfOpen hs
    · rw [hc] at h'
      cases h'
    · exact ⟨hs, hlt, hf, hn⟩
  · rw [recordSuccess_of_ne_halfOpen hs] at h'
    exact absurd h' hs

@[simp] theorem apply_config (clock : ℚ) (s : Traffic) (c : Call) :
    (apply clock s c).breaker.config = s.breaker.config := by
  cases c with
  | readState => simp [apply]
  | beforeRequest =>
    simp only [apply]
    cases (Breaker.beforeRequest clock s.breaker).2 <;> simp
  | recordSuccess i => simp [apply]
  | recordFailure i => simp [apply]

theorem live_admit {s : Traffic} (hn : s.next ∉ s.outstanding) :
    (s.next :: s.outstanding).countP (· ∈ s.next :: s.probes) = live s + 1 := by
  have hc : s.outstanding.countP (· ∈ s.next :: s.probes) = live s := by
    apply List.countP_congr
    intro i hi
    have hne : i ≠ s.next := fun he => hn (he ▸ hi)
    simp [hne]
  rw [List.countP_cons, hc]
  simp

theorem live_record {s : Traffic} {i : ℕ} (hi : i ∈ s.outstanding) :
    live s = (s.outstanding.erase i).countP (· ∈ s.probes) + if i ∈ s.probes then 1 else 0 := by
  have hp := (List.perm_cons_erase hi).countP_eq (· ∈ s.probes)
  rw [List.countP_cons] at hp
  simpa [live] using hp

def twoProbes : CircuitBreakerConfig :=
  { minimumRequests := 2, openDurationSeconds := 1, halfOpenMaxRequests := 2 }

def tripped : List (ℚ × Call) :=
  [(0, .beforeRequest), (0, .beforeRequest), (0, .beforeRequest),
    (0, .recordFailure 1), (0, .recordFailure 2)]

end Sentinel.Callers
