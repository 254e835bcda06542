import Sentinel.Limiter
import Sentinel.TokenBucketLaw
import Mathlib.Algebra.Order.Archimedean.Basic
import Mathlib.Data.Int.ConditionallyCompleteOrder

namespace Sentinel.TokenBucketExpiry

open Finset Limiter TokenBucket TokenBucketLaw

def checks (policy : TokenBucketPolicy) (t : ℕ → ℚ) : ℕ → Args :=
  calls policy.capacity policy.refillRate policy.ttlSeconds t (fun _ => policy.cost)

def expired (calls : ℕ → Args) (b : Bucket) (k : ℕ) : Bool :=
  (b.ttlSeconds : ℚ) * 1000 ≤ (calls (k + 1)).nowMs - (calls k).nowMs

/-- The key before evaluation `k` of a run that starts without the key and in which Redis deletes
it when its expiry is over. -/
def keptAt (calls : ℕ → Args) : ℕ → Option Bucket
  | 0 => none
  | k + 1 =>
    let b := (evaluate (calls k) (keptAt calls k)).1
    if expired calls b k then none else some b

def passed (calls : ℕ → Args) (k : ℕ) : Bool := (evaluate (calls k) (keptAt calls k)).2.allowed

def charged (calls : ℕ → Args) (k : ℕ) : ℚ := if passed calls k then (calls k).cost else 0

/-- No stretch of evaluations is charged more than a full bucket and the refill over its time. -/
def WithinQuota (policy : TokenBucketPolicy) (t : ℕ → ℚ) : Prop :=
  ∀ i j, i ≤ j → ∑ k ∈ Icc i j, charged (checks policy t) k ≤
    policy.capacity + policy.refillRate * (t j - t i) / 1000

theorem evaluate_congr {a : Args} {state state' : Option Bucket}
    (h : refilled a state = refilled a state') : evaluate a state = evaluate a state' := by
  simp only [evaluate, h]

section

variable {policy : TokenBucketPolicy} {t : ℕ → ℚ}

theorem refilled_nonneg (hcap : 1 ≤ policy.capacity) (hr : 0 < policy.refillRate) (k : ℕ) :
    0 ≤ refilled (checks policy t k) (bucketAt (checks policy t) k) := by
  have hcap' : (0 : ℚ) ≤ policy.capacity := by exact_mod_cast (by omega : (0 : ℤ) ≤ _)
  induction k with
  | zero =>
    rw [bucketAt, refilled_fresh]
    exact hcap'
  | succ k ih =>
    exact refilled_some_nonneg hcap' hr.le (evaluate_tokens_nonneg ih)

theorem evaluate_keptAt (hcap : 1 ≤ policy.capacity) (hr : 0 < policy.refillRate)
    (hfull : (policy.capacity : ℚ) ≤ policy.refillRate * policy.ttlSeconds) (k : ℕ) :
    evaluate (checks policy t k) (keptAt (checks policy t) k) =
      evaluate (checks policy t k) (bucketAt (checks policy t) k) := by
  induction k with
  | zero => rfl
  | succ k ih =>
    by_cases hgap : (policy.ttlSeconds : ℚ) * 1000 ≤ t (k + 1) - t k
    · apply evaluate_congr
      have hkept : keptAt (checks policy t) (k + 1) = none := by
        simp [keptAt, expired, evaluate_ttlSeconds, checks, calls, hgap]
      have htokens := evaluate_tokens_nonneg (refilled_nonneg (t := t) hcap hr k)
      have hmax : t (k + 1) - t k ≤ max 0 (t (k + 1) - t k) := le_max_right _ _
      have hrefill : policy.refillRate * policy.ttlSeconds ≤
          max 0 (t (k + 1) - t k) / 1000 * policy.refillRate := by
        rw [mul_comm]
        apply mul_le_mul_of_nonneg_right _ hr.le
        linarith
      rw [hkept, refilled_fresh, bucketAt, refilled_some, evaluate_lastRefillMs, eq_comm]
      apply min_eq_left
      exact hfull.trans (hrefill.trans (le_add_of_nonneg_left htokens))
    · have hkept : keptAt (checks policy t) (k + 1) = bucketAt (checks policy t) (k + 1) := by
        rw [keptAt, bucketAt, ih]
        simp [expired, evaluate_ttlSeconds, checks, calls, hgap]
      rw [hkept]

theorem withinQuota_of_full (hcap : 1 ≤ policy.capacity) (hr : 0 < policy.refillRate)
    (hfull : (policy.capacity : ℚ) ≤ policy.refillRate * policy.ttlSeconds) (ht : Monotone t) :
    WithinQuota policy t := by
  intro i j hij
  have hspent : ∀ k, charged (checks policy t) k = spent (checks policy t) k := by
    intro k
    rw [charged, passed, evaluate_keptAt hcap hr hfull, spent, admitted]
  have hcap' : (0 : ℚ) ≤ policy.capacity := by exact_mod_cast (by omega : (0 : ℤ) ≤ _)
  have h := sum_spent_le_credit policy.capacity policy.refillRate policy.ttlSeconds t
    (fun _ => policy.cost) hcap' hr.le hij
  rw [sum_gain policy.refillRate t hij fun k _ _ => ht k.le_succ] at h
  rw [sum_congr rfl fun k _ => hspent k]
  exact h

end

section

variable {R : Type*} [CommRing R]

/-- Bursts of `m + 1` evaluations, the last of each burst after a pause `w`, and an idle time
`idle` between two bursts. -/
def bursts (idle w : R) (m k : ℕ) : R :=
  (k / (m + 1) : ℕ) * (w + idle) + if k % (m + 1) = m then w else 0

theorem bursts_last (idle w : R) {m k : ℕ} (h : k % (m + 1) = m) :
    (k + 1) % (m + 1) = 0 ∧ bursts idle w m (k + 1) - bursts idle w m k =
      idle + if m = 0 then w else 0 := by
  have hk : k + 1 = (m + 1) * (k / (m + 1) + 1) := by
    have := Nat.div_add_mod k (m + 1)
    rw [Nat.mul_add]
    omega
  have hmod : (k + 1) % (m + 1) = 0 := by
    rw [hk]
    exact Nat.mul_mod_right _ _
  have hdiv : (k + 1) / (m + 1) = k / (m + 1) + 1 := by
    rw [hk]
    exact Nat.mul_div_cancel_left _ m.succ_pos
  refine ⟨hmod, ?_⟩
  simp only [bursts, hmod, hdiv, h, eq_comm (a := 0), ↓reduceIte]
  push_cast
  ring

theorem bursts_next (idle w : R) {m k : ℕ} (h : k % (m + 1) ≠ m) :
    (k + 1) % (m + 1) = k % (m + 1) + 1 ∧ bursts idle w m (k + 1) - bursts idle w m k =
      if k % (m + 1) + 1 = m then w else 0 := by
  have hlt : k % (m + 1) + 1 < m + 1 := by
    have := Nat.mod_lt k (Nat.add_one_pos m)
    omega
  have hk : k + 1 = (m + 1) * (k / (m + 1)) + (k % (m + 1) + 1) := by
    have := Nat.div_add_mod k (m + 1)
    omega
  have hmod : (k + 1) % (m + 1) = k % (m + 1) + 1 := by
    rw [hk, Nat.mul_add_mod, Nat.mod_eq_of_lt hlt]
  have hdiv : (k + 1) / (m + 1) = k / (m + 1) := by
    rw [hk, Nat.mul_add_div m.succ_pos, Nat.div_eq_of_lt hlt]
    omega
  refine ⟨hmod, ?_⟩
  simp [bursts, hmod, hdiv, h]

theorem bursts_mono [LinearOrder R] [IsStrictOrderedRing R] {idle w : R} (hidle : 0 ≤ idle)
    (hw : 0 ≤ w) (m : ℕ) : Monotone (bursts idle w m) := by
  apply monotone_nat_of_le_succ
  intro k
  rw [← sub_nonneg]
  by_cases h : k % (m + 1) = m
  · rw [(bursts_last idle w h).2]
    split_ifs <;> positivity
  · rw [(bursts_next idle w h).2]
    split_ifs <;> positivity

end

section

variable {policy : TokenBucketPolicy} {w : ℚ} {m : ℕ}

theorem bursts_cast (idle w : ℤ) (m k : ℕ) :
    ((bursts idle w m k : ℤ) : ℚ) = bursts (idle : ℚ) (w : ℚ) m k := by
  simp only [bursts]
  push_cast
  rfl

/-- What makes the bursts pass: the bucket holds the first `m` charges, and it has refilled enough
for the last one after the pause, before its key expires. -/
structure Fits (policy : TokenBucketPolicy) (w : ℚ) (m : ℕ) : Prop where
  cost : 1 ≤ policy.cost
  rate : 0 < policy.refillRate
  first : (m : ℚ) * policy.cost ≤ policy.capacity
  full : (policy.cost : ℚ) ≤ policy.capacity
  last : (policy.cost : ℚ) ≤ policy.capacity - m * policy.cost + w / 1000 * policy.refillRate
  pause : 0 ≤ w
  kept : w < policy.ttlSeconds * 1000

def found (policy : TokenBucketPolicy) (w : ℚ) (m s : ℕ) : ℚ :=
  min policy.capacity
    (policy.capacity - s * policy.cost + (if s = m then w else 0) / 1000 * policy.refillRate)

theorem found_of_lt (h : Fits policy w m) {s : ℕ} (hs : s < m) :
    found policy w m s = policy.capacity - s * policy.cost := by
  have hcost : (0 : ℚ) ≤ policy.cost := by exact_mod_cast zero_le_one.trans h.cost
  have hspent : (0 : ℚ) ≤ s * policy.cost := by positivity
  rw [found, if_neg hs.ne, zero_div, zero_mul, add_zero]
  exact min_eq_right (by linarith)

theorem cost_le_found (h : Fits policy w m) {s : ℕ} (hs : s ≤ m) :
    (policy.cost : ℚ) ≤ found policy w m s := by
  obtain rfl | hlt := hs.eq_or_lt
  · rw [found, if_pos rfl]
    exact le_min h.full h.last
  · have hcost : (0 : ℚ) ≤ policy.cost := by exact_mod_cast zero_le_one.trans h.cost
    have hle : ((s : ℚ) + 1) * policy.cost ≤ m * policy.cost := by
      apply mul_le_mul_of_nonneg_right _ hcost
      exact_mod_cast hlt
    have hfirst := h.first
    rw [found_of_lt h hlt]
    linarith

theorem mod_le (m k : ℕ) : k % (m + 1) ≤ m := Nat.lt_succ_iff.mp (Nat.mod_lt k (Nat.add_one_pos m))

theorem refilled_bursts (h : Fits policy w m) (k : ℕ) :
    refilled (checks policy (bursts (policy.ttlSeconds * 1000) w m) k)
        (keptAt (checks policy (bursts (policy.ttlSeconds * 1000) w m)) k) =
      found policy w m (k % (m + 1)) := by
  have hpause : 0 ≤ w / 1000 * policy.refillRate :=
    mul_nonneg (div_nonneg h.pause (by norm_num)) h.rate.le
  have hfull : found policy w m 0 = policy.capacity := by
    rw [found, Nat.cast_zero, zero_mul, sub_zero]
    apply min_eq_left
    split_ifs
    · exact le_add_of_nonneg_right hpause
    · simp
  induction k with
  | zero => rw [Nat.zero_mod, hfull, keptAt, refilled_fresh, checks, calls]
  | succ k ih =>
    by_cases hlast : k % (m + 1) = m
    · obtain ⟨hmod, hgap⟩ := bursts_last ((policy.ttlSeconds : ℚ) * 1000) w hlast
      have hw := h.pause
      have hkept : keptAt (checks policy (bursts (policy.ttlSeconds * 1000) w m)) (k + 1) =
          none := by
        have hidle : (policy.ttlSeconds : ℚ) * 1000 ≤
            bursts ((policy.ttlSeconds : ℚ) * 1000) w m (k + 1) -
              bursts ((policy.ttlSeconds : ℚ) * 1000) w m k := by
          rw [hgap]
          split_ifs <;> linarith
        simp [keptAt, expired, evaluate_ttlSeconds, checks, calls, hidle]
      rw [hmod, hfull, hkept, refilled_fresh, checks, calls]
    · obtain ⟨hmod, hgap⟩ := bursts_next ((policy.ttlSeconds : ℚ) * 1000) w hlast
      have hlt : k % (m + 1) < m := lt_of_le_of_ne (mod_le m k) hlast
      have hshort : (if k % (m + 1) + 1 = m then w else 0) < (policy.ttlSeconds : ℚ) * 1000 := by
        have := h.pause
        have := h.kept
        split_ifs <;> linarith
      have hnonneg : 0 ≤ if k % (m + 1) + 1 = m then w else 0 := by
        have := h.pause
        split_ifs <;> linarith
      have hkept : keptAt (checks policy (bursts (policy.ttlSeconds * 1000) w m)) (k + 1) =
          some (evaluate (checks policy (bursts (policy.ttlSeconds * 1000) w m) k)
            (keptAt (checks policy (bursts (policy.ttlSeconds * 1000) w m)) k)).1 := by
        simp [keptAt, expired, evaluate_ttlSeconds, checks, calls, hgap, hshort]
      have hallowed : (checks policy (bursts (policy.ttlSeconds * 1000) w m) k).cost ≤
          found policy w m (k % (m + 1)) := cost_le_found h hlt.le
      have htokens : (evaluate (checks policy (bursts (policy.ttlSeconds * 1000) w m) k)
          (keptAt (checks policy (bursts (policy.ttlSeconds * 1000) w m)) k)).1.tokens =
          policy.capacity - (k % (m + 1) : ℕ) * policy.cost - policy.cost := by
        rw [evaluate_tokens, evaluate_allowed, ih, decide_eq_true hallowed, if_pos rfl,
          found_of_lt h hlt, checks, calls]
      have hnow : (checks policy (bursts (policy.ttlSeconds * 1000) w m) (k + 1)).nowMs -
          (checks policy (bursts (policy.ttlSeconds * 1000) w m) k).nowMs =
          if k % (m + 1) + 1 = m then w else 0 := hgap
      rw [hkept, refilled_some, evaluate_lastRefillMs, htokens, hnow, max_eq_right hnonneg, hmod,
        found, checks, calls]
      push_cast
      ring_nf

theorem bursts_passed (h : Fits policy w m) (k : ℕ) :
    passed (checks policy (bursts (policy.ttlSeconds * 1000) w m)) k = true := by
  rw [passed, evaluate_allowed, refilled_bursts h, decide_eq_true_eq]
  exact cost_le_found h (mod_le m k)

theorem bursts_exceed (h : Fits policy w m)
    (hgain : (w / 1000 + policy.ttlSeconds) * policy.refillRate < (m + 1) * policy.cost) :
    ¬WithinQuota policy (bursts (policy.ttlSeconds * 1000) w m) := by
  intro hquota
  obtain ⟨n, hn⟩ := exists_nat_gt ((policy.capacity + w / 1000 * policy.refillRate) /
    ((m + 1) * policy.cost - (w / 1000 + policy.ttlSeconds) * policy.refillRate))
  rw [div_lt_iff₀ (sub_pos.mpr hgain)] at hn
  have hq := hquota 0 ((m + 1) * n + m) (Nat.zero_le _)
  have hcharged : ∀ k, charged (checks policy (bursts (policy.ttlSeconds * 1000) w m)) k =
      policy.cost := by
    intro k
    rw [charged, bursts_passed h, if_pos rfl, checks, calls]
  have hdiv : ((m + 1) * n + m) / (m + 1) = n := by
    rw [Nat.mul_add_div (Nat.add_one_pos m), Nat.div_eq_of_lt (Nat.lt_succ_self m), add_zero]
  have hmod : ((m + 1) * n + m) % (m + 1) = m := by
    rw [Nat.mul_add_mod, Nat.mod_eq_of_lt (Nat.lt_succ_self m)]
  have hend : bursts ((policy.ttlSeconds : ℚ) * 1000) w m ((m + 1) * n + m) =
      n * (w + policy.ttlSeconds * 1000) + w := by
    rw [bursts, hdiv, hmod, if_pos rfl]
  have hstart : 0 ≤ bursts ((policy.ttlSeconds : ℚ) * 1000) w m 0 := by
    rw [bursts, Nat.zero_div, Nat.cast_zero, zero_mul, zero_add]
    split_ifs
    · exact h.pause
    · exact le_rfl
  have hstart' := mul_nonneg h.rate.le hstart
  have hcost : (1 : ℚ) ≤ policy.cost := by exact_mod_cast h.cost
  have hburst : (0 : ℚ) ≤ m * policy.cost := by positivity
  simp only [sum_congr rfl fun k _ => hcharged k, sum_const, Nat.card_Icc, nsmul_eq_mul, hend] at hq
  push_cast at hq
  have hcount : ((m + 1) * n + m + 1 - 0 : ℚ) * policy.cost =
      n * ((m + 1) * policy.cost) + (m + 1) * policy.cost := by ring
  linarith

/-- Where `m` charges fit into the bucket and no more, either bursts of `m` exceed the quota, or
bursts of `m + 1` do whose last charge waits for the tokens that `m` charges leave over. -/
theorem exists_bursts (hr : 0 < policy.refillRate) (hc : 1 ≤ policy.cost)
    (ht : 1 ≤ policy.ttlSeconds)
    (hm : 1 ≤ m) (hfit : (m : ℚ) * policy.cost ≤ policy.capacity)
    (hw : (m + 1) * policy.cost - policy.capacity ≤ w / 1000 * policy.refillRate)
    (hlate : w / 1000 * policy.refillRate + policy.refillRate * policy.ttlSeconds <
      (m + 1) * policy.cost) (hw0 : 0 ≤ w) :
    ∃ w' m', (w' = 0 ∨ w' = w) ∧ ¬WithinQuota policy (bursts (policy.ttlSeconds * 1000) w' m') := by
  have hcost : (1 : ℚ) ≤ policy.cost := by exact_mod_cast hc
  have httl : (1 : ℚ) ≤ policy.ttlSeconds := by exact_mod_cast ht
  have hm' : (1 : ℚ) ≤ m := by exact_mod_cast hm
  have hone : (policy.cost : ℚ) ≤ m * policy.cost := le_mul_of_one_le_left (by linarith) hm'
  by_cases hsmall : policy.refillRate * policy.ttlSeconds < m * policy.cost
  · obtain ⟨n, rfl⟩ : ∃ n, m = n + 1 := ⟨m - 1, by omega⟩
    push_cast at hfit hsmall hone
    refine ⟨0, n, .inl rfl, bursts_exceed ⟨hc, hr, ?_, ?_, ?_, le_rfl, ?_⟩ ?_⟩ <;> linarith
  · have hkept : w / 1000 < policy.ttlSeconds := by
      apply lt_of_mul_lt_mul_right _ hr.le
      linarith
    refine ⟨w, m, .inr rfl, bursts_exceed ⟨hc, hr, hfit, ?_, ?_, hw0, ?_⟩ ?_⟩ <;> linarith

theorem exists_charges (hc : 1 ≤ policy.cost) (hle : policy.cost ≤ policy.capacity) :
    ∃ m : ℕ, 1 ≤ m ∧ (m : ℚ) * policy.cost ≤ policy.capacity ∧
      (policy.capacity : ℚ) < (m + 1) * policy.cost := by
  obtain ⟨m, hm⟩ : ∃ m : ℕ, (m : ℤ) = policy.capacity / policy.cost :=
    ⟨_, Int.toNat_of_nonneg (Int.ediv_nonneg (by omega) (by omega))⟩
  refine ⟨m, ?_, ?_, ?_⟩
  · have := Int.le_ediv_of_mul_le (by omega : 0 < policy.cost) ((one_mul policy.cost).le.trans hle)
    omega
  · have := Int.ediv_mul_le policy.capacity (by omega : policy.cost ≠ 0)
    rw [← hm] at this
    exact_mod_cast this
  · have := Int.lt_ediv_add_one_mul_self policy.capacity (by omega : 0 < policy.cost)
    rw [← hm] at this
    exact_mod_cast this

theorem idle_nonneg (ht : 1 ≤ policy.ttlSeconds) : (0 : ℚ) ≤ policy.ttlSeconds * 1000 := by
  have : (1 : ℚ) ≤ policy.ttlSeconds := by exact_mod_cast ht
  linarith

theorem capacity_le_of_withinQuota (hr : 0 < policy.refillRate) (hc : 1 ≤ policy.cost)
    (hle : policy.cost ≤ policy.capacity) (ht : 1 ≤ policy.ttlSeconds)
    (h : ∀ t : ℕ → ℚ, Monotone t → WithinQuota policy t) :
    (policy.capacity : ℚ) ≤ policy.refillRate * policy.ttlSeconds := by
  obtain ⟨m, hone, hfit, hover⟩ := exists_charges hc hle
  by_contra hlt
  rw [not_le] at hlt
  let w := ((m + 1) * policy.cost - policy.capacity) / policy.refillRate * 1000
  have hw : w / 1000 * policy.refillRate = (m + 1) * policy.cost - policy.capacity := by
    simp only [w]
    field_simp
  have hw0 : 0 ≤ w := by
    have := sub_pos.mpr hover
    positivity
  obtain ⟨w', m', hw', hexceed⟩ := exists_bursts hr hc ht hone hfit hw.ge (by linarith) hw0
  apply hexceed (h _ (bursts_mono (idle_nonneg ht) _ m'))
  obtain rfl | rfl := hw'
  · exact le_rfl
  · exact hw0

theorem exists_ticks_exceed (hr : 0 < policy.refillRate) (hc : 1 ≤ policy.cost)
    (hle : policy.cost ≤ policy.capacity) (ht : 1 ≤ policy.ttlSeconds)
    (h : policy.refillRate * (policy.ttlSeconds + 1 / 1000) ≤ policy.capacity) :
    ∃ t : ℕ → ℤ, Monotone t ∧ ¬WithinQuota policy (fun k => t k) := by
  obtain ⟨m, hone, hfit, hover⟩ := exists_charges hc hle
  let w := ⌈((m + 1) * policy.cost - policy.capacity) / policy.refillRate * 1000⌉
  have hw : ((m + 1) * policy.cost - policy.capacity) / policy.refillRate * 1000 ≤ w :=
    Int.le_ceil _
  have hw1 : (w : ℚ) < ((m + 1) * policy.cost - policy.capacity) / policy.refillRate * 1000 + 1 :=
    Int.ceil_lt_add_one _
  have hrefill : ∀ x : ℚ, x / policy.refillRate * 1000 / 1000 * policy.refillRate = x := by
    intro x
    field_simp
  have hlo : (m + 1) * policy.cost - policy.capacity ≤ (w : ℚ) / 1000 * policy.refillRate := by
    rw [← hrefill ((m + 1) * policy.cost - policy.capacity)]
    gcongr
  have hhi : (w : ℚ) / 1000 * policy.refillRate <
      (m + 1) * policy.cost - policy.capacity + 1 / 1000 * policy.refillRate := by
    rw [← hrefill ((m + 1) * policy.cost - policy.capacity), ← add_mul, ← add_div]
    gcongr
  have hw0 : (0 : ℚ) ≤ w := by
    have := sub_pos.mpr hover
    exact le_trans (by positivity) hw
  obtain ⟨w', m', hw', hexceed⟩ := exists_bursts hr hc ht hone hfit hlo (by linarith) hw0
  obtain ⟨v, hv, hv0⟩ : ∃ v : ℤ, w' = v ∧ 0 ≤ v := by
    obtain rfl | rfl := hw'
    · exact ⟨0, by simp, le_rfl⟩
    · exact ⟨w, rfl, by exact_mod_cast hw0⟩
  refine ⟨bursts (policy.ttlSeconds * 1000) v m', bursts_mono (by omega) hv0 m', ?_⟩
  simp only [bursts_cast]
  push_cast
  rwa [← hv]

end

/-- The quota survives the expiry of the key exactly when an empty bucket refills before its key
expires. Already a clock that ticks in whole milliseconds shows the excess, once the refill of one
more millisecond would not fill the bucket either. -/
theorem quota_survives_expiry_iff (policy : TokenBucketPolicy) (hcap : 1 ≤ policy.capacity)
    (hr : 0 < policy.refillRate) (hc : 1 ≤ policy.cost) (hle : policy.cost ≤ policy.capacity)
    (ht : 1 ≤ policy.ttlSeconds) :
    ((∀ t : ℕ → ℚ, Monotone t → WithinQuota policy t) ↔
      (policy.capacity : ℚ) ≤ policy.refillRate * policy.ttlSeconds) ∧
    (policy.refillRate * (policy.ttlSeconds + 1 / 1000) ≤ policy.capacity →
      ∃ t : ℕ → ℤ, Monotone t ∧ ¬WithinQuota policy (fun k => t k)) := by
  refine ⟨⟨capacity_le_of_withinQuota hr hc hle ht, fun hfull t hmono => ?_⟩,
    exists_ticks_exceed hr hc hle ht⟩
  exact withinQuota_of_full hcap hr hfull hmono

theorem quota_survives_hour :
    ∑ k ∈ Icc 0 3, charged (checks ⟨100, 100, 1, 3600, .failClosed⟩ (fun k => 3600000 * k)) k ≤
      (100 : ℤ) + 100 * ((3600000 * (3 : ℕ) : ℚ) - 3600000 * (0 : ℕ)) / 1000 :=
  ((quota_survives_expiry_iff ⟨100, 100, 1, 3600, .failClosed⟩ (by decide) (by norm_num) (by decide)
    (by decide) (by decide)).1.mpr (by norm_num)) (fun k => 3600000 * k)
    (fun i j hij => by simpa using hij) 0 3 (by decide)

/-- Ten tokens that take a day to refill, with the key kept for an hour: the whole bucket is
granted again after an hour. -/
theorem quota_exceeded_after_expiry :
    ¬∀ t : ℕ → ℚ, Monotone t → WithinQuota ⟨10, 10 / 86400, 10, 3600, .failClosed⟩ t := by
  intro h
  have hquota := h (fun k => 3600001 * k) (fun i j hij => by simpa using hij) 0 1 (by decide)
  revert hquota
  decide +kernel

end Sentinel.TokenBucketExpiry
