import Sentinel.Runs
import Sentinel.SlidingWindow

namespace Sentinel.SlidingWindowWait

open Runs SlidingWindow

def step (limit windowMs : ℤ) (w : Window) (a : Args) (w' : Window) : Prop :=
  (a.limit = limit ∧ a.windowMs = windowMs) ∧ w' = (evaluate a w).1

/-- An evaluation under the policy of `a` that is refused and does not go back in time; the state
is the window with the time of the last evaluation. -/
def waiting (a : Args) (s : Window × ℤ) (e : Args) (s' : Window × ℤ) : Prop :=
  (e.limit = a.limit ∧ e.windowMs = a.windowMs) ∧ s.2 ≤ e.nowMs ∧
    (evaluate e s.1).2.allowed = false ∧ s' = ((evaluate e s.1).1, e.nowMs)

section

variable {a e : Args} {w : Window}

theorem le_card_of_refused (h : (evaluate a w).2.allowed = false) :
    a.limit ≤ (evicted a w).card := by
  rw [← not_lt, ← evaluate_allowed_iff, h]
  exact Bool.false_ne_true

theorem log_of_refused (h : (evaluate a w).2.allowed = false) :
    (evaluate a w).1.log = evicted a w := by
  rw [evaluate_log, h]
  rfl

theorem card_evaluate_le (h : (w.log.card : ℤ) ≤ a.limit) :
    ((evaluate a w).1.log.card : ℤ) ≤ a.limit := by
  have hevicted : (evicted a w).card ≤ w.log.card := SortedSet.card_removeUpTo_le _ _
  cases hallowed : (evaluate a w).2.allowed with
  | false =>
    rw [log_of_refused hallowed]
    omega
  | true =>
    have hroom := (evaluate_allowed_iff a w).mp hallowed
    have hadd := (evicted a w).card_add_le (member a) a.nowMs
    rw [evaluate_log, hallowed, if_pos rfl]
    omega

/-- No order of times and no reuse of ids fills a window beyond its limit. -/
theorem card_le_limit {limit windowMs : ℤ} (hl : 0 ≤ limit)
    (h : Reaches (step limit windowMs) {} w) : (w.log.card : ℤ) ≤ limit := by
  refine h.invariant (I := fun w => (w.log.card : ℤ) ≤ limit) ?_ hl
  rintro w e w' hw ⟨⟨rfl, -⟩, rfl⟩
  exact card_evaluate_le hw

theorem retryAfterMs_of_refused {oldest : String × ℤ}
    (h : (evaluate a w).2.allowed = false) (hfirst : (evicted a w).first = some oldest) :
    0 < (evaluate a w).2.retryAfterMs ∧
      (evaluate a w).2.retryAfterMs = oldest.2 + a.windowMs - a.nowMs := by
  have hfull := not_lt.mpr (le_card_of_refused h)
  have hin : oldest ∈ (evicted a w).entries := List.mem_of_head? hfirst
  have hlate : a.nowMs - a.windowMs < oldest.2 := by
    simpa using (List.mem_filter.mp hin).2
  have hpos : ¬oldest.2 + a.windowMs - a.nowMs < 0 := by omega
  have heq : (evaluate a w).2.retryAfterMs = oldest.2 + a.windowMs - a.nowMs := by
    simp [evaluate, hfull, hfirst, hpos]
  rw [heq]
  exact ⟨by omega, rfl⟩

theorem evicted_of_waiting {s : Window × ℤ} (h : (evaluate a w).2.allowed = false)
    (hrun : Reaches (waiting a) ((evaluate a w).1, a.nowMs) s)
    (hpolicy : e.windowMs = a.windowMs) (hle : s.2 ≤ e.nowMs) :
    evicted e s.1 = (evicted a w).removeUpTo (e.nowMs - a.windowMs) := by
  have hlog : a.nowMs ≤ s.2 ∧ s.1.log = (evicted a w).removeUpTo (s.2 - a.windowMs) := by
    refine hrun.invariant (I := fun s => a.nowMs ≤ s.2 ∧
      s.1.log = (evicted a w).removeUpTo (s.2 - a.windowMs)) ?_ ⟨le_rfl, ?_⟩
    · rintro s e s' ⟨hsince, hlog⟩ ⟨⟨-, hwindow⟩, hle, hrefused, rfl⟩
      refine ⟨hsince.trans hle, ?_⟩
      rw [log_of_refused hrefused, evicted, hlog, hwindow]
      exact SortedSet.removeUpTo_removeUpTo _ (by omega)
    · rw [log_of_refused h]
      exact (SortedSet.removeUpTo_removeUpTo _ le_rfl).symm
  rw [evicted, hlog.2, hpolicy]
  exact SortedSet.removeUpTo_removeUpTo _ (by omega)

end

/-- After a refusal, with nothing but refusals since, the next evaluation is admitted exactly when
`retry_after_ms` have passed. -/
theorem window_retry_after_exact (limit windowMs : ℤ) (hl : 1 ≤ limit) (w : Window)
    (hreach : Reaches (step limit windowMs) {} w) (a : Args)
    (ha : a.limit = limit ∧ a.windowMs = windowMs) (hrefused : (evaluate a w).2.allowed = false) :
    0 < (evaluate a w).2.retryAfterMs ∧
    ∀ s, Reaches (waiting a) ((evaluate a w).1, a.nowMs) s →
      ∀ (e : Args) (d : ℕ), e.limit = limit ∧ e.windowMs = windowMs → e.nowMs = a.nowMs + d →
        s.2 ≤ e.nowMs →
        ((evaluate e s.1).2.allowed = true ↔ (evaluate a w).2.retryAfterMs ≤ d) := by
  obtain ⟨rfl, rfl⟩ := ha
  have hle : ((evicted a w).card : ℤ) ≤ a.limit := by
    have hcard := card_le_limit (by omega) hreach
    have hevicted : (evicted a w).card ≤ w.log.card := SortedSet.card_removeUpTo_le _ _
    omega
  -- a refusal finds the window full
  have hfull : ((evicted a w).card : ℤ) = a.limit := le_antisymm hle (le_card_of_refused hrefused)
  obtain ⟨oldest, hfirst⟩ : ∃ oldest, (evicted a w).first = some oldest := by
    cases hentries : (evicted a w).entries with
    | nil =>
      rw [SortedSet.card, hentries, List.length_nil] at hfull
      omega
    | cons oldest rest => exact ⟨oldest, by rw [SortedSet.first, hentries, List.head?_cons]⟩
  obtain ⟨hpos, hafter⟩ := retryAfterMs_of_refused hrefused hfirst
  refine ⟨hpos, fun s hrun e d hpolicy hnow hlast => ?_⟩
  have hleft := (evicted a w).card_removeUpTo_lt_iff hfirst (e.nowMs - a.windowMs)
  rw [evaluate_allowed_iff, evicted_of_waiting hrefused hrun hpolicy.2 hlast, hpolicy.1, hafter]
  omega

def oncePerSecond (nowMs : ℤ) (memberId : String) : Args := ⟨1, 1000, nowMs, memberId, 3600⟩

theorem window_admits_after_wait :
    (evaluate (oncePerSecond 1000 "d") (evaluate (oncePerSecond 700 "c")
      (evaluate (oncePerSecond 600 "b") (evaluate (oncePerSecond 0 "a") {}).1).1).1).2.allowed =
      true := by
  have hreach : Reaches (step 1 1000) {} (evaluate (oncePerSecond 0 "a") {}).1 :=
    (Reaches.refl _).tail (i := oncePerSecond 0 "a") ⟨⟨rfl, rfl⟩, rfl⟩
  have hwait : Reaches (waiting (oncePerSecond 600 "b"))
      ((evaluate (oncePerSecond 600 "b") (evaluate (oncePerSecond 0 "a") {}).1).1, 600)
      ((evaluate (oncePerSecond 700 "c") (evaluate (oncePerSecond 600 "b")
        (evaluate (oncePerSecond 0 "a") {}).1).1).1, 700) :=
    (Reaches.refl _).tail (i := oncePerSecond 700 "c")
      ⟨⟨rfl, rfl⟩, by decide, by decide +kernel, rfl⟩
  have h := window_retry_after_exact 1 1000 le_rfl _ hreach (oncePerSecond 600 "b") ⟨rfl, rfl⟩
    (by decide +kernel)
  exact (h.2 _ hwait (oncePerSecond 1000 "d") 400 ⟨rfl, rfl⟩ rfl (by decide)).mpr
    (by decide +kernel)

end Sentinel.SlidingWindowWait
