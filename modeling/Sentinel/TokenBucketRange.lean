import Sentinel.Runs
import Sentinel.TokenBucket
import Mathlib.Data.Int.ConditionallyCompleteOrder
import Mathlib.Tactic.Linarith

namespace Sentinel.TokenBucketRange

open Runs TokenBucket

def step (state : Option Bucket) (a : Args) (state' : Option Bucket) : Prop :=
  state' = some (evaluate a state).1

structure Valid (a : Args) : Prop where
  capacity : 0 ≤ a.capacity
  refillRate : 0 < a.refillRate
  cost : 0 ≤ a.cost

/-- A key that is there holds no debt. -/
def Solvent (state : Option Bucket) : Prop := ∀ b, state = some b → 0 ≤ b.tokens

section

variable {a : Args} {state : Option Bucket} (ha : Valid a)

include ha

theorem refilled_nonneg_of_solvent (hs : Solvent state) : 0 ≤ refilled a state := by
  cases state with
  | none =>
    rw [refilled_fresh]
    exact ha.capacity
  | some b => exact refilled_some_nonneg ha.capacity ha.refillRate.le (hs b rfl)

theorem solvent_step (hs : Solvent state) {state' : Option Bucket} (h : step state a state') :
    Solvent state' := by
  subst h
  intro b hb
  cases hb
  exact evaluate_tokens_nonneg (refilled_nonneg_of_solvent ha hs)

theorem tokens_le_refilled : (evaluate a state).1.tokens ≤ refilled a state := by
  rw [evaluate_tokens]
  split_ifs
  · exact sub_le_self _ ha.cost
  · exact sub_le_self _ le_rfl

omit ha in
theorem refilled_le_of_le {b : Bucket} (h : a.nowMs ≤ b.lastRefillMs) :
    refilled a (some b) ≤ b.tokens := by
  have hmax : max 0 (a.nowMs - b.lastRefillMs) = 0 := max_eq_left (by linarith)
  rw [refilled_some, hmax]
  simp

theorem retryAfterMs_pos (h : (evaluate a state).2.allowed = false) :
    0 < (evaluate a state).2.retryAfterMs := by
  rw [evaluate_retryAfterMs_of_refused ha.refillRate h]
  rw [evaluate_allowed, decide_eq_false_iff_not, not_le] at h
  have hwait : 0 < (a.cost - refilled a state) / a.refillRate * 1000 :=
    mul_pos (div_pos (sub_pos.mpr h) ha.refillRate) (by norm_num)
  exact_mod_cast Int.ceil_pos.mpr hwait

end

/-- Whatever the clocks and the policies of the evaluations before, an evaluation leaves a bucket
within its own capacity and gives a reply that fits its verdict. -/
theorem bucket_in_range (state : Option Bucket)
    (h : Reaches (Guarded (fun _ a => Valid a) step) none state) (a : Args) (ha : Valid a) :
    (0 ≤ (evaluate a state).1.tokens ∧ (evaluate a state).1.tokens ≤ a.capacity) ∧
    (∀ b, state = some b → a.nowMs ≤ b.lastRefillMs →
      refilled a state ≤ b.tokens ∧ (evaluate a state).1.tokens ≤ b.tokens) ∧
    (0 ≤ (evaluate a state).2.remaining ∧ ((evaluate a state).2.remaining : ℚ) ≤ a.capacity) ∧
    ((evaluate a state).2.allowed = true → (evaluate a state).2.retryAfterMs = 0) ∧
    ((evaluate a state).2.allowed = false → 0 < (evaluate a state).2.retryAfterMs) := by
  have hs : Solvent state :=
    h.invariant (fun _ _ _ hs hstep => solvent_step hstep.1 hs hstep.2) (fun b hb => nomatch hb)
  have hlow := evaluate_tokens_nonneg (refilled_nonneg_of_solvent ha hs)
  have hhigh : (evaluate a state).1.tokens ≤ a.capacity :=
    (tokens_le_refilled ha).trans (refilled_le_capacity a state)
  refine ⟨⟨hlow, hhigh⟩, ?_, ?_, evaluate_retryAfterMs_of_allowed, retryAfterMs_pos ha⟩
  · rintro b rfl hle
    have hrefilled := refilled_le_of_le hle
    exact ⟨hrefilled, (tokens_le_refilled ha).trans hrefilled⟩
  · rw [evaluate_remaining]
    exact ⟨Int.floor_nonneg.mpr hlow, (Int.floor_le _).trans hhigh⟩

theorem range_after_policy_change :
    (evaluate ⟨2, 1, 3, 500, 3600⟩ (some ⟨4, 1000, 3600⟩)).1.tokens ≤ 2 ∧
      0 < (evaluate ⟨2, 1, 3, 500, 3600⟩ (some ⟨4, 1000, 3600⟩)).2.retryAfterMs := by
  have hreach : Reaches (Guarded (fun _ a => Valid a) step) none (some ⟨4, 1000, 3600⟩) :=
    (Reaches.refl _).tail (i := ⟨5, 1, 1, 1000, 3600⟩)
      ⟨⟨by norm_num, by norm_num, by norm_num⟩, by unfold step; decide +kernel⟩
  have hrange := bucket_in_range _ hreach ⟨2, 1, 3, 500, 3600⟩
    ⟨by norm_num, by norm_num, by norm_num⟩
  exact ⟨hrange.1.2, hrange.2.2.2.2 (by decide +kernel)⟩

end Sentinel.TokenBucketRange
