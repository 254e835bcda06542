import Sentinel.Runs
import Sentinel.TokenBucket
import Mathlib.Data.Int.ConditionallyCompleteOrder
import Mathlib.Tactic.Linarith
import Mathlib.Tactic.Ring

namespace Sentinel.TokenBucketWait

open Runs TokenBucket

def waiting (a : Args) (b : Bucket) (e : Args) (b' : Bucket) : Prop :=
  (e.capacity = a.capacity ∧ e.refillRate = a.refillRate) ∧ b.lastRefillMs ≤ e.nowMs ∧
    (evaluate e (some b)).2.allowed = false ∧ b' = (evaluate e (some b)).1

/-- The bucket has refilled from `tokens` since `a`, and nothing was taken from it. -/
structure Refilling (a : Args) (tokens : ℚ) (b : Bucket) : Prop where
  since : a.nowMs ≤ b.lastRefillMs
  tokens : b.tokens =
    min a.capacity (tokens + (b.lastRefillMs - a.nowMs) / 1000 * a.refillRate)

theorem refilled_of_le {a : Args} {b : Bucket} (h : b.lastRefillMs ≤ a.nowMs) :
    refilled a (some b) =
      min a.capacity (b.tokens + (a.nowMs - b.lastRefillMs) / 1000 * a.refillRate) := by
  rw [refilled_some, max_eq_right (sub_nonneg.mpr h)]

theorem tokens_of_refused {a : Args} {state : Option Bucket}
    (h : (evaluate a state).2.allowed = false) :
    (evaluate a state).1.tokens = refilled a state := by
  simp [evaluate_tokens, h]

theorem refilling_of_refused {a : Args} {state : Option Bucket}
    (h : (evaluate a state).2.allowed = false) :
    Refilling a (refilled a state) (evaluate a state).1 := by
  refine ⟨(evaluate_lastRefillMs a state).ge, ?_⟩
  rw [tokens_of_refused h, evaluate_lastRefillMs, sub_self, zero_div, zero_mul, add_zero,
    min_eq_right (refilled_le_capacity a state)]

section

variable {a e : Args} {tokens : ℚ} {b b' : Bucket}

/-- Two refills in a row are one under one cap. -/
theorem Refilling.refilled_eq (h : Refilling a tokens b) (hr : 0 ≤ a.refillRate)
    (hpolicy : e.capacity = a.capacity ∧ e.refillRate = a.refillRate)
    (hle : b.lastRefillMs ≤ e.nowMs) :
    refilled e (some b) =
      min a.capacity (tokens + (e.nowMs - a.nowMs) / 1000 * a.refillRate) := by
  have hrefill : 0 ≤ (e.nowMs - b.lastRefillMs) / 1000 * a.refillRate :=
    mul_nonneg (div_nonneg (sub_nonneg.mpr hle) (by norm_num)) hr
  have hsum : tokens + (b.lastRefillMs - a.nowMs) / 1000 * a.refillRate +
      (e.nowMs - b.lastRefillMs) / 1000 * a.refillRate =
      tokens + (e.nowMs - a.nowMs) / 1000 * a.refillRate := by ring
  rw [refilled_of_le hle, hpolicy.1, hpolicy.2, h.tokens, ← min_add_add_right, ← min_assoc,
    min_eq_left (le_add_of_nonneg_right hrefill), hsum]

theorem Refilling.step (h : Refilling a tokens b) (hr : 0 ≤ a.refillRate)
    (hwait : waiting a b e b') : Refilling a tokens b' := by
  obtain ⟨hpolicy, hle, hrefused, rfl⟩ := hwait
  refine ⟨?_, ?_⟩
  · rw [evaluate_lastRefillMs]
    exact h.since.trans hle
  · rw [tokens_of_refused hrefused, evaluate_lastRefillMs]
    exact h.refilled_eq hr hpolicy hle

end

/-- After a refusal, with nothing but refusals since, the next evaluation is admitted exactly when
`retry_after_ms` have passed. -/
theorem bucket_retry_after_exact (state : Option Bucket) (a : Args) (hr : 0 < a.refillRate)
    (hcost : a.cost ≤ a.capacity) (hrefused : (evaluate a state).2.allowed = false)
    (b : Bucket) (hrun : Reaches (waiting a) (evaluate a state).1 b) (d : ℕ)
    (hd : b.lastRefillMs ≤ a.nowMs + d) :
    (evaluate { a with nowMs := a.nowMs + d } (some b)).2.allowed = true ↔
      (evaluate a state).2.retryAfterMs ≤ (d : ℤ) := by
  have hb : Refilling a (refilled a state) b :=
    hrun.invariant (fun _ _ _ h hwait => h.step hr.le hwait) (refilling_of_refused hrefused)
  have hfound : refilled { a with nowMs := a.nowMs + d } (some b) =
      min a.capacity (refilled a state + d / 1000 * a.refillRate) := by
    have hrefilled := hb.refilled_eq (e := { a with nowMs := a.nowMs + d }) hr.le ⟨rfl, rfl⟩ hd
    rwa [add_sub_cancel_left] at hrefilled
  have hafter : (evaluate a state).2.retryAfterMs ≤ (d : ℤ) ↔
      (a.cost - refilled a state) / a.refillRate * 1000 ≤ d := by
    rw [evaluate_retryAfterMs_of_refused hr hrefused, WithTop.coe_le_coe, Int.ceil_le,
      Int.cast_natCast]
  have hwait : (a.cost - refilled a state) / a.refillRate * 1000 ≤ d ↔
      a.cost ≤ refilled a state + d / 1000 * a.refillRate := by
    rw [← le_div_iff₀ (by norm_num : (0 : ℚ) < 1000), div_le_iff₀ hr, sub_le_iff_le_add']
  rw [evaluate_allowed, decide_eq_true_eq, hfound, le_min_iff, and_iff_right hcost, hafter, hwait]

theorem bucket_admits_after_one_second :
    (evaluate ⟨1, 1, 1, 1000, 3600⟩ (some (evaluate ⟨1, 1, 1, 400, 3600⟩
      (some (evaluate ⟨1, 1, 1, 0, 3600⟩ (some ⟨0, 0, 3600⟩)).1)).1)).2.allowed = true := by
  have hrun : Reaches (waiting ⟨1, 1, 1, 0, 3600⟩)
      (evaluate ⟨1, 1, 1, 0, 3600⟩ (some ⟨0, 0, 3600⟩)).1
      (evaluate ⟨1, 1, 1, 400, 3600⟩
        (some (evaluate ⟨1, 1, 1, 0, 3600⟩ (some ⟨0, 0, 3600⟩)).1)).1 :=
    (Reaches.refl _).tail (i := ⟨1, 1, 1, 400, 3600⟩)
      ⟨⟨rfl, rfl⟩, by decide +kernel, by decide +kernel, rfl⟩
  have h := bucket_retry_after_exact (some ⟨0, 0, 3600⟩) ⟨1, 1, 1, 0, 3600⟩ (by norm_num) le_rfl
    (by decide +kernel) _ hrun 1000 (by decide +kernel)
  rw [show ((0 : ℚ) + (1000 : ℕ)) = 1000 by norm_num] at h
  exact h.mpr (by decide +kernel)

end Sentinel.TokenBucketWait
