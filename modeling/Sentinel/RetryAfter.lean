import Sentinel.PathFidelity
import Sentinel.TokenBucketWait

namespace Sentinel.RetryAfter

open Runs Text Router Limiter TokenBucket TokenBucketWait Pipeline PathFidelity
open Dispatch hiding admitted

/-- What a bucket that a check finds still needs to hold the cost, in milliseconds. -/
def wait (policy : TokenBucketPolicy) (nowMs : ℤ) (state : Option Bucket) : ℚ :=
  (policy.cost - refilled (policy.args nowMs) state) / policy.refillRate * 1000

def retryAfterS (policy : TokenBucketPolicy) (nowMs : ℤ) (state : Option Bucket) : ℤ :=
  max 1 (Int.fdiv ⌈wait policy nowMs state⌉ 1000)

/-- A check of the policy that is refused. -/
def refusing (policy : TokenBucketPolicy) (b : Bucket) (nowMs : ℤ) (b' : Bucket) : Prop :=
  (evaluate (policy.args nowMs) (some b)).2.allowed = false ∧
    b' = (evaluate (policy.args nowMs) (some b)).1

def InOrder (b : Bucket) (nowMs : ℤ) : Prop := b.lastRefillMs ≤ nowMs

def Refilled (a : Args) (tokens : ℚ) (b : Bucket) : Prop :=
  min a.capacity (tokens + (b.lastRefillMs - a.nowMs) / 1000 * a.refillRate) ≤ b.tokens

section

variable {policy : TokenBucketPolicy} {nowMs later : ℤ} {state : Option Bucket} {b : Bucket}
  {tokens : ℚ}

theorem Refilled.le_refilled (hr : 0 ≤ policy.refillRate)
    (h : Refilled (policy.args nowMs) tokens b) :
    min (policy.capacity : ℚ) (tokens + (later - nowMs) / 1000 * policy.refillRate) ≤
      refilled (policy.args later) (some b) := by
  have hb : min (policy.capacity : ℚ)
      (tokens + (b.lastRefillMs - nowMs) / 1000 * policy.refillRate) ≤ b.tokens := h
  have hgain : 0 ≤ max 0 ((later : ℚ) - b.lastRefillMs) / 1000 * policy.refillRate := by positivity
  have hstep : ((later : ℚ) - b.lastRefillMs) / 1000 * policy.refillRate ≤
      max 0 ((later : ℚ) - b.lastRefillMs) / 1000 * policy.refillRate := by
    gcongr
    exact le_max_right _ _
  rw [refilled_some]
  refine le_min (min_le_left _ _) ?_
  rw [min_le_iff] at hb ⊢
  simp only [TokenBucketPolicy.args]
  obtain hcap | htokens := hb
  · exact .inl (by linarith)
  · exact .inr (by linarith)

theorem Refilled.step (hr : 0 ≤ policy.refillRate) {b' : Bucket}
    (h : Refilled (policy.args nowMs) tokens b) (hstep : refusing policy b later b') :
    Refilled (policy.args nowMs) tokens b' := by
  obtain ⟨hrefused, rfl⟩ := hstep
  rw [Refilled, tokens_of_refused hrefused, evaluate_lastRefillMs]
  exact h.le_refilled hr

theorem wait_pos (hr : 0 < policy.refillRate)
    (hrefused : (evaluate (policy.args nowMs) state).2.allowed = false) :
    0 < wait policy nowMs state := by
  rw [evaluate_allowed, decide_eq_false_iff_not, not_le] at hrefused
  exact mul_pos (div_pos (sub_pos.mpr hrefused) hr) (by norm_num)

theorem wait_le_iff (hr : 0 < policy.refillRate) (d : ℚ) : wait policy nowMs state ≤ d ↔
    policy.cost ≤ refilled (policy.args nowMs) state + d / 1000 * policy.refillRate := by
  rw [wait, ← le_div_iff₀ (by norm_num : (0 : ℚ) < 1000), div_le_iff₀ hr, sub_le_iff_le_add']

theorem wait_le_retryAfterS_iff (hwait : 0 < wait policy nowMs state) :
    wait policy nowMs state ≤ 1000 * (retryAfterS policy nowMs state : ℤ) ↔
      wait policy nowMs state ≤ 1000 ∨ 1000 ∣ ⌈wait policy nowMs state⌉ := by
  have hpos : 0 < ⌈wait policy nowMs state⌉ := Int.ceil_pos.mpr hwait
  have hceil : ∀ n : ℤ, wait policy nowMs state ≤ n ↔ ⌈wait policy nowMs state⌉ ≤ n :=
    fun n => Int.ceil_le.symm
  have hn := hceil (1000 * retryAfterS policy nowMs state)
  have h1000 := hceil 1000
  push_cast at hn h1000
  rw [hn, h1000, retryAfterS, Int.fdiv_eq_ediv_of_nonneg _ (by norm_num)]
  omega

theorem enough_iff (hr : 0 < policy.refillRate)
    (hrefused : (evaluate (policy.args nowMs) state).2.allowed = false)
    (hlater : later = nowMs + 1000 * retryAfterS policy nowMs state) :
    policy.cost ≤ refilled (policy.args nowMs) state +
        ((later : ℚ) - nowMs) / 1000 * policy.refillRate ↔
      wait policy nowMs state ≤ 1000 ∨ 1000 ∣ ⌈wait policy nowMs state⌉ := by
  have hspan : (later : ℚ) - nowMs = 1000 * retryAfterS policy nowMs state := by
    rw [hlater]
    push_cast
    ring
  rw [hspan, ← wait_le_iff hr, wait_le_retryAfterS_iff (wait_pos hr hrefused)]

end

theorem proceed_of_refused (lib : StringLibrary) (p : GatewayPipeline) (q : Inbound) (m : Moment)
    (g : Gateway) (route : RouteDefinition) {nowMs : ℤ} {state : Option Bucket} (overflow : ℤ)
    (hr : 0 < q.rateLimitPolicy.refillRate)
    (hrefused : (evaluate (q.rateLimitPolicy.args nowMs) state).2.allowed = false) :
    ∃ result, proceed lib p q m g (.limiting route)
        (.reply (some (.of overflow (evaluate (q.rateLimitPolicy.args nowMs) state).2))) =
        some ⟨g, [], .done result⟩ ∧
      result.statusCode = 429 ∧ result.headers.get? "Retry-After" =
        some (toString (retryAfterS q.rateLimitPolicy nowMs state)) := by
  let decision := checkTokenBucket q.rateLimitPolicy
    (some (.of overflow (evaluate (q.rateLimitPolicy.args nowMs) state).2))
  have hdecision : decision.allowed = false := by
    simp [decision, checkTokenBucket, ScriptReply.of, hrefused]
  have hms : decision.retryAfterMs = ⌈wait q.rateLimitPolicy nowMs state⌉ := by
    have hafter := evaluate_retryAfterMs_of_refused
      (show 0 < (q.rateLimitPolicy.args nowMs).refillRate from hr) hrefused
    simp only [decision, checkTokenBucket, ScriptReply.of, hafter, WithTop.untopD_coe]
    rfl
  refine ⟨rateLimited q decision, ?_, rfl, ?_⟩
  · simp only [decision] at hdecision ⊢
    simp only [proceed, hdecision, Bool.not_false, ↓reduceIte]
  · simp [rateLimited, Dict.get?_set, hms, retryAfterS]

/-- Waiting for the `Retry-After` of a refused check is enough exactly when the tokens it lacks
come within one second, or within the last millisecond of a whole second. -/
theorem retry_after_enough_iff (lib : StringLibrary) (p : GatewayPipeline) (q : Inbound)
    (m : Moment) (g : Gateway) (route : RouteDefinition) (hr : 0 < q.rateLimitPolicy.refillRate)
    (hle : q.rateLimitPolicy.cost ≤ q.rateLimitPolicy.capacity) (state : Option Bucket)
    (nowMs overflow : ℤ)
    (hrefused : (evaluate (q.rateLimitPolicy.args nowMs) state).2.allowed = false) :
    (∃ result, proceed lib p q m g (.limiting route)
        (.reply (some (.of overflow (evaluate (q.rateLimitPolicy.args nowMs) state).2))) =
        some ⟨g, [], .done result⟩ ∧
      result.statusCode = 429 ∧ result.headers.get? "Retry-After" =
        some (toString (retryAfterS q.rateLimitPolicy nowMs state))) ∧
    ∀ later, later = nowMs + 1000 * retryAfterS q.rateLimitPolicy nowMs state → ∀ b,
      (Reaches (refusing q.rateLimitPolicy)
          (evaluate (q.rateLimitPolicy.args nowMs) state).1 b →
        (wait q.rateLimitPolicy nowMs state ≤ 1000 ∨
          1000 ∣ ⌈wait q.rateLimitPolicy nowMs state⌉) →
        (evaluate (q.rateLimitPolicy.args later) (some b)).2.allowed = true) ∧
      (Reaches (Guarded InOrder (refusing q.rateLimitPolicy))
          (evaluate (q.rateLimitPolicy.args nowMs) state).1 b → InOrder b later →
        (evaluate (q.rateLimitPolicy.args later) (some b)).2.allowed = true →
        (wait q.rateLimitPolicy nowMs state ≤ 1000 ∨
          1000 ∣ ⌈wait q.rateLimitPolicy nowMs state⌉)) := by
  refine ⟨proceed_of_refused lib p q m g route overflow hr hrefused, fun later hlater b => ?_⟩
  have hstart := refilling_of_refused hrefused
  have hcap : (q.rateLimitPolicy.cost : ℚ) ≤ q.rateLimitPolicy.capacity := by exact_mod_cast hle
  rw [evaluate_allowed, decide_eq_true_eq, ← enough_iff hr hrefused hlater]
  constructor
  · intro hrun henough
    have hb : Refilled (q.rateLimitPolicy.args nowMs)
        (refilled (q.rateLimitPolicy.args nowMs) state) b :=
      hrun.invariant (fun _ _ _ h hstep => h.step hr.le hstep) hstart.tokens.ge
    exact (le_min hcap henough).trans (hb.le_refilled hr.le)
  · intro hrun hlast hadmitted
    have hb : Refilling (q.rateLimitPolicy.args nowMs)
        (refilled (q.rateLimitPolicy.args nowMs) state) b := by
      refine hrun.invariant (fun b t b' h hstep => ?_) hstart
      exact h.step (e := q.rateLimitPolicy.args t) hr.le
        ⟨⟨rfl, rfl⟩, hstep.1, hstep.2.1, hstep.2.2⟩
    have hfound := hb.refilled_eq (e := q.rateLimitPolicy.args later) hr.le ⟨rfl, rfl⟩ hlast
    exact (hadmitted.trans hfound.le).trans (min_le_right _ _)

def heavy (cost : ℤ) : Inbound :=
  { getPath "/users/" with
    rateLimitPolicy := { capacity := cost, refillRate := 2, cost := cost } }

def idle : Gateway := ⟨fresh, .new {}⟩

/-- The bucket after its first check, and after a second one at once. -/
def spentBucket (cost : ℤ) : Bucket := (evaluate ((heavy cost).rateLimitPolicy.args 0) none).1

@[inherit_doc spentBucket]
def refusedBucket (cost : ℤ) : Bucket :=
  (evaluate ((heavy cost).rateLimitPolicy.args 0) (some (spentBucket cost))).1

theorem retry_after_enough :
    (evaluate ((heavy 2).rateLimitPolicy.args 1000) (some (refusedBucket 2))).2.allowed = true :=
  ((retry_after_enough_iff posix users (heavy 2) (instant 0) idle usersRoute (by decide)
    (by decide) (some (spentBucket 2)) 0 0 (by decide +kernel)).2 1000 (by decide +kernel)
    (refusedBucket 2)).1 (.refl _) (.inl (by decide +kernel))

theorem retry_after_too_early :
    (∃ result, proceed posix users (heavy 3) (instant 0) idle (.limiting usersRoute)
        (.reply (some (.of 0
          (evaluate ((heavy 3).rateLimitPolicy.args 0) (some (spentBucket 3))).2))) =
        some ⟨idle, [], .done result⟩ ∧
      result.statusCode = 429 ∧ result.headers.get? "Retry-After" = some (toString (1 : ℤ))) ∧
    (evaluate ((heavy 3).rateLimitPolicy.args (0 + 1000 * 1))
      (some (refusedBucket 3))).2.allowed = false := by
  have hrefused : (evaluate ((heavy 3).rateLimitPolicy.args 0)
      (some (spentBucket 3))).2.allowed = false := by decide +kernel
  have hn : retryAfterS (heavy 3).rateLimitPolicy 0 (some (spentBucket 3)) = 1 := by
    decide +kernel
  have hanswer := proceed_of_refused posix users (heavy 3) (instant 0) idle usersRoute 0 (by decide)
    hrefused
  rw [hn] at hanswer
  exact ⟨hanswer, by decide +kernel⟩

end Sentinel.RetryAfter
