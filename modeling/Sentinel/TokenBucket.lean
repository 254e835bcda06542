import Mathlib.Algebra.Order.Floor.Ring
import Mathlib.Data.Rat.Floor
import Mathlib.Order.WithBot

namespace Sentinel.TokenBucket

/-- `ARGV` of one evaluation of `token_bucket.lua`, with Lua numbers as exact rationals. -/
structure Args where
  capacity : ℚ
  refillRate : ℚ
  cost : ℚ
  nowMs : ℚ
  ttlSeconds : ℤ
  deriving DecidableEq

structure Bucket where
  tokens : ℚ
  lastRefillMs : ℚ
  ttlSeconds : ℤ
  deriving DecidableEq

/-- The script's return value. `retryAfterMs` is infinite when an empty bucket never refills. -/
structure Reply where
  allowed : Bool
  remaining : ℤ
  retryAfterMs : WithTop ℤ
  deriving DecidableEq

/-- The tokens after the refill and before the request is charged. -/
def refilled (a : Args) (state : Option Bucket) : ℚ :=
  let tokens := (state.map Bucket.tokens).getD a.capacity
  let lastRefillMs := (state.map Bucket.lastRefillMs).getD a.nowMs
  let elapsedMs := if a.nowMs - lastRefillMs < 0 then 0 else a.nowMs - lastRefillMs
  let refill := elapsedMs / 1000 * a.refillRate
  min a.capacity (tokens + refill)

def evaluate (a : Args) (state : Option Bucket) : Bucket × Reply :=
  let tokens := refilled a state
  if a.cost ≤ tokens then
    let tokens := tokens - a.cost
    (⟨tokens, a.nowMs, a.ttlSeconds⟩, ⟨true, ⌊tokens⌋, 0⟩)
  else
    let deficit := a.cost - tokens
    let retryAfterMs := if a.refillRate = 0 then ⊤ else ↑⌈deficit / a.refillRate * 1000⌉
    (⟨tokens, a.nowMs, a.ttlSeconds⟩, ⟨false, ⌊tokens⌋, retryAfterMs⟩)

/-- The key before evaluation `k` of a run that starts without the key and never loses it. -/
def bucketAt (calls : ℕ → Args) : ℕ → Option Bucket
  | 0 => none
  | k + 1 => some (evaluate (calls k) (bucketAt calls k)).1

def admitted (calls : ℕ → Args) (k : ℕ) : Bool := (evaluate (calls k) (bucketAt calls k)).2.allowed

def spent (calls : ℕ → Args) (k : ℕ) : ℚ := if admitted calls k then (calls k).cost else 0

theorem evaluate_allowed (a : Args) (state : Option Bucket) :
    (evaluate a state).2.allowed = decide (a.cost ≤ refilled a state) := by
  by_cases h : a.cost ≤ refilled a state <;> simp [evaluate, h]

@[simp] theorem evaluate_lastRefillMs (a : Args) (state : Option Bucket) :
    (evaluate a state).1.lastRefillMs = a.nowMs := by
  by_cases h : a.cost ≤ refilled a state <;> simp [evaluate, h]

theorem evaluate_ttlSeconds (a : Args) (state : Option Bucket) :
    (evaluate a state).1.ttlSeconds = a.ttlSeconds := by
  by_cases h : a.cost ≤ refilled a state <;> simp [evaluate, h]

theorem evaluate_tokens (a : Args) (state : Option Bucket) :
    (evaluate a state).1.tokens =
      refilled a state - if (evaluate a state).2.allowed then a.cost else 0 := by
  by_cases h : a.cost ≤ refilled a state <;> simp [evaluate, h]

theorem refilled_fresh (a : Args) : refilled a none = a.capacity := by
  simp [refilled]

theorem refilled_some (a : Args) (b : Bucket) :
    refilled a (some b) =
      min a.capacity (b.tokens + max 0 (a.nowMs - b.lastRefillMs) / 1000 * a.refillRate) := by
  by_cases h : a.nowMs - b.lastRefillMs < 0
  · simp [refilled, h, max_eq_left h.le]
  · simp [refilled, h, max_eq_right (not_lt.mp h)]

theorem refilled_some_nonneg {a : Args} {b : Bucket} (hcap : 0 ≤ a.capacity)
    (hr : 0 ≤ a.refillRate) (hb : 0 ≤ b.tokens) : 0 ≤ refilled a (some b) := by
  have hrefill : 0 ≤ max 0 (a.nowMs - b.lastRefillMs) / 1000 * a.refillRate :=
    mul_nonneg (div_nonneg (le_max_left _ _) (by norm_num)) hr
  rw [refilled_some]
  exact le_min hcap (add_nonneg hb hrefill)

theorem refilled_le_capacity (a : Args) (state : Option Bucket) :
    refilled a state ≤ a.capacity := min_le_left _ _

theorem evaluate_tokens_nonneg {a : Args} {state : Option Bucket} (h : 0 ≤ refilled a state) :
    0 ≤ (evaluate a state).1.tokens := by
  rw [evaluate_tokens, evaluate_allowed, sub_nonneg]
  by_cases hc : a.cost ≤ refilled a state
  · simp [hc]
  · simpa [hc] using h

theorem evaluate_remaining (a : Args) (state : Option Bucket) :
    (evaluate a state).2.remaining = ⌊(evaluate a state).1.tokens⌋ := by
  by_cases h : a.cost ≤ refilled a state <;> simp [evaluate, h]

theorem evaluate_retryAfterMs_of_allowed {a : Args} {state : Option Bucket}
    (h : (evaluate a state).2.allowed = true) : (evaluate a state).2.retryAfterMs = 0 := by
  rw [evaluate_allowed, decide_eq_true_eq] at h
  simp [evaluate, h]

theorem evaluate_retryAfterMs_of_refused {a : Args} {state : Option Bucket}
    (hr : 0 < a.refillRate) (h : (evaluate a state).2.allowed = false) :
    (evaluate a state).2.retryAfterMs =
      (⌈(a.cost - refilled a state) / a.refillRate * 1000⌉ : ℤ) := by
  rw [evaluate_allowed, decide_eq_false_iff_not] at h
  simp [evaluate, h, hr.ne']

end Sentinel.TokenBucket
