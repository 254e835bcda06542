import Sentinel.CappedMeter
import Sentinel.TokenBucket
import Mathlib.Algebra.BigOperators.Field
import Mathlib.Tactic.FieldSimp
import Mathlib.Tactic.Linarith
import Mathlib.Tactic.Positivity
import Mathlib.Tactic.Ring

namespace Sentinel.TokenBucketLaw

open Finset TokenBucket CappedMeter

/-- Evaluations of one policy on one key, in the order in which they arrive: `t k` is the
`now_ms` and `c k` the cost of evaluation `k`. -/
def calls (capacity refillRate : ℚ) (ttlSeconds : ℤ) (t c : ℕ → ℚ) (k : ℕ) : Args :=
  ⟨capacity, refillRate, c k, t k, ttlSeconds⟩

/-- What the clock credits between evaluations `k` and `k + 1`: nothing when it goes back. -/
def gain (refillRate : ℚ) (t : ℕ → ℚ) (k : ℕ) : ℚ :=
  max 0 (t (k + 1) - t k) / 1000 * refillRate

section

variable (capacity refillRate : ℚ) (ttlSeconds : ℤ) (t c : ℕ → ℚ)

/-- The stored bucket is the capped meter of its own admissions. -/
theorem refilled_eq_level (k : ℕ) :
    refilled (calls capacity refillRate ttlSeconds t c k)
        (bucketAt (calls capacity refillRate ttlSeconds t c) k) =
      level capacity (gain refillRate t) (spent (calls capacity refillRate ttlSeconds t c)) k := by
  induction k with
  | zero => exact refilled_fresh _
  | succ k ih =>
    rw [bucketAt, refilled_some, evaluate_tokens, evaluate_lastRefillMs, ih]
    rfl

theorem admitted_iff_level (k : ℕ) :
    admitted (calls capacity refillRate ttlSeconds t c) k = true ↔
      c k ≤ level capacity (gain refillRate t)
        (spent (calls capacity refillRate ttlSeconds t c)) k := by
  rw [← refilled_eq_level, admitted, evaluate_allowed, decide_eq_true_eq]
  rfl

theorem spent_cases (k : ℕ) :
    spent (calls capacity refillRate ttlSeconds t c) k = 0 ∨
      spent (calls capacity refillRate ttlSeconds t c) k ≤ level capacity (gain refillRate t)
        (spent (calls capacity refillRate ttlSeconds t c)) k := by
  by_cases h : admitted (calls capacity refillRate ttlSeconds t c) k = true
  · right
    rw [show spent (calls capacity refillRate ttlSeconds t c) k = c k by simp [spent, h, calls]]
    exact (admitted_iff_level capacity refillRate ttlSeconds t c k).mp h
  · left
    simp [spent, h]

theorem gain_nonneg (hr : 0 ≤ refillRate) (k : ℕ) : 0 ≤ gain refillRate t k := by
  unfold gain
  positivity

theorem sum_gain {i k : ℕ} (hik : i ≤ k) (ht : ∀ j, i ≤ j → j < k → t j ≤ t (j + 1)) :
    ∑ j ∈ Ico i k, gain refillRate t j = refillRate * (t k - t i) / 1000 := by
  induction k, hik using Nat.le_induction with
  | base => simp
  | succ k hik ih =>
    rw [sum_Ico_succ_top hik, ih (fun j hj hk => ht j hj (by omega)), gain,
      max_eq_right (sub_nonneg.mpr (ht k hik (by omega)))]
    ring

/-- Whatever the order of the timestamps, a stretch of evaluations admits at most a full bucket
and what its forward clock movements credit. -/
theorem sum_spent_le_credit (hc : 0 ≤ capacity) (hr : 0 ≤ refillRate) {i j : ℕ} (hij : i ≤ j) :
    ∑ k ∈ Ico i (j + 1), spent (calls capacity refillRate ttlSeconds t c) k ≤
      capacity + ∑ k ∈ Ico i j, gain refillRate t k :=
  sum_spent_le capacity (gain refillRate t) _ hc (gain_nonneg refillRate t hr)
    (spent_cases capacity refillRate ttlSeconds t c) hij

end

/-- The admission law: evaluation `k` is admitted exactly when no stretch ending with it would
exceed a full bucket and the refill since its start. -/
theorem admission_law (capacity refillRate : ℚ) (hc : 0 ≤ capacity) (hr : 0 ≤ refillRate)
    (ttlSeconds : ℤ) (t c : ℕ → ℚ) (n : ℕ) (ht : ∀ i j, i ≤ j → j < n → t i ≤ t j) :
    (∀ k < n, admitted (calls capacity refillRate ttlSeconds t c) k = true ↔
      ∀ i ≤ k, ∑ j ∈ Ico i k, spent (calls capacity refillRate ttlSeconds t c) j + c k ≤
        capacity + refillRate * (t k - t i) / 1000) ∧
    (∀ i j, i ≤ j → j < n →
      ∑ k ∈ Icc i j, spent (calls capacity refillRate ttlSeconds t c) k ≤
        capacity + refillRate * (t j - t i) / 1000) := by
  have hgain : ∀ i k, i ≤ k → k < n →
      ∑ j ∈ Ico i k, gain refillRate t j = refillRate * (t k - t i) / 1000 :=
    fun i k hik hk => sum_gain refillRate t hik fun j _ hj => ht j (j + 1) (by omega) (by omega)
  constructor
  · intro k hk
    rw [admitted_iff_level, le_level_iff]
    apply forall₂_congr
    intro i hi
    rw [hgain i k hi hk]
  · intro i j hij hj
    rw [← hgain i j hij hj]
    exact sum_spent_le_credit capacity refillRate ttlSeconds t c hc hr hij

theorem admission_law_half_second :
    admitted (calls 1 1 3600 (fun k => 500 * k) (fun _ => 1)) 1 = false ∧
      ∀ i ≤ 2, ∑ j ∈ Ico i 2, spent (calls 1 1 3600 (fun k => 500 * k) (fun _ => 1)) j + 1 ≤
        1 + 1 * ((500 * (2 : ℕ) : ℚ) - 500 * i) / 1000 := by
  have h := admission_law 1 1 (by norm_num) (by norm_num) 3600 (fun k => 500 * k) (fun _ => 1) 3
    (fun i j hij _ => by simpa using hij)
  exact ⟨by decide +kernel, (h.1 2 (by norm_num)).mp (by decide +kernel)⟩

/-- The latest and the earliest `now_ms` of the evaluations `0, ..., n`. -/
def latest (t : ℕ → ℚ) (n : ℕ) : ℚ := (range (n + 1)).sup' nonempty_range_add_one t

@[inherit_doc latest]
def earliest (t : ℕ → ℚ) (n : ℕ) : ℚ := (range (n + 1)).inf' nonempty_range_add_one t

/-- The quota across gateways holds as long as the forward movements of the clocks add up to no
more than the span of the run. -/
theorem quota_of_forward_movements (capacity refillRate : ℚ) (hc : 0 ≤ capacity)
    (hr : 0 ≤ refillRate) (ttlSeconds : ℤ) (t c : ℕ → ℚ) (n : ℕ)
    (ht : ∑ k ∈ range n, max 0 (t (k + 1) - t k) ≤ latest t n - earliest t n) :
    ∑ k ∈ range (n + 1), spent (calls capacity refillRate ttlSeconds t c) k ≤
      capacity + refillRate * (latest t n - earliest t n) / 1000 := by
  have h := sum_spent_le_credit capacity refillRate ttlSeconds t c hc hr n.zero_le
  have hcredit : ∑ k ∈ range n, gain refillRate t k =
      refillRate * (∑ k ∈ range n, max 0 (t (k + 1) - t k)) / 1000 := by
    rw [mul_sum, sum_div]
    refine sum_congr rfl (fun k _ => ?_)
    rw [gain]
    ring
  have hspan := mul_le_mul_of_nonneg_left ht hr
  rw [← range_eq_Ico, ← range_eq_Ico, hcredit] at h
  linarith

/-- The quota across gateways, for runs in which no evaluation finds a `last_refill_ms` later
than its own `now_ms`. -/
theorem quota_of_forward_clock (capacity refillRate : ℚ) (hc : 0 ≤ capacity) (hr : 0 ≤ refillRate)
    (ttlSeconds : ℤ) (t c : ℕ → ℚ) (n : ℕ)
    (ht : ∀ k ≤ n, ∀ b, bucketAt (calls capacity refillRate ttlSeconds t c) k = some b →
      b.lastRefillMs ≤ t k) :
    ∑ k ∈ range (n + 1), spent (calls capacity refillRate ttlSeconds t c) k ≤
      capacity + refillRate * (latest t n - earliest t n) / 1000 := by
  have hstep : ∀ k, 0 ≤ k → k < n → t k ≤ t (k + 1) := by
    intro k _ hk
    have h := ht (k + 1) (by omega) _ rfl
    rwa [evaluate_lastRefillMs] at h
  have hlast : t n ≤ latest t n := le_sup' t (self_mem_range_succ n)
  have hfirst : earliest t n ≤ t 0 := inf'_le t (mem_range.mpr n.succ_pos)
  have hmoves : ∑ k ∈ range n, max 0 (t (k + 1) - t k) = t n - t 0 := by
    rw [← sum_range_sub t n]
    refine sum_congr rfl (fun k hk => max_eq_right ?_)
    exact sub_nonneg.mpr (hstep k k.zero_le (mem_range.mp hk))
  exact quota_of_forward_movements capacity refillRate hc hr ttlSeconds t c n (by linarith)

theorem quota_half_second :
    ∑ k ∈ range 3, spent (calls 1 1 3600 (fun k => 500 * k) (fun _ => 1)) k ≤
      1 + 1 * (latest (fun k => 500 * k) 2 - earliest (fun k => 500 * k) 2) / 1000 := by
  refine quota_of_forward_clock 1 1 (by norm_num) (by norm_num) 3600 (fun k => 500 * k)
    (fun _ => 1) 2 (fun k _ b hb => ?_)
  cases k with
  | zero => cases hb
  | succ k =>
    obtain rfl := Option.some.inj hb
    rw [evaluate_lastRefillMs]
    simp [calls]

/-- Two gateways whose clocks differ by one second and whose evaluations alternate are admitted
three tokens over a span that can only have refilled one beyond the single token of capacity. -/
theorem quota_exceeded_by_alternating_clocks :
    ¬ ∑ k ∈ range 5, spent (calls 1 1 3600 (fun k => if k % 2 = 0 then 1000 else 0) (fun _ => 1)) k ≤
      1 + 1 * (latest (fun k => if k % 2 = 0 then 1000 else 0) 4 -
        earliest (fun k => if k % 2 = 0 then 1000 else 0) 4) / 1000 := by
  decide +kernel

end Sentinel.TokenBucketLaw
