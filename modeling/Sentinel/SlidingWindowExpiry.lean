import Sentinel.Limiter
import Sentinel.SlidingWindowLaw

namespace Sentinel.SlidingWindowExpiry

open Limiter SlidingWindow SlidingWindowLaw

def checks (policy : SlidingWindowPolicy) (t : ℕ → ℤ) (ids : ℕ → String) : ℕ → Args :=
  calls policy.limit (policy.windowSeconds * 1000) policy.ttlSeconds t ids

def expired (calls : ℕ → Args) (w : Window) (k : ℕ) : Bool :=
  w.ttlSeconds * 1000 ≤ (calls (k + 1)).nowMs - (calls k).nowMs

/-- The key before evaluation `k` of a run that starts without the key and in which Redis deletes
it when its expiry is over. -/
def keptAt (calls : ℕ → Args) : ℕ → Window
  | 0 => {}
  | k + 1 =>
    let w := (evaluate (calls k) (keptAt calls k)).1
    if expired calls w k then {} else w

def passed (calls : ℕ → Args) (k : ℕ) : Bool := (evaluate (calls k) (keptAt calls k)).2.allowed

/-- How many of the first `n` evaluations were admitted with a timestamp in
`(x - windowMs, x]`. -/
def passes (calls : ℕ → Args) (windowMs x : ℤ) (n : ℕ) : ℕ :=
  Nat.count (fun j => passed calls j = true ∧ x - windowMs < (calls j).nowMs ∧
    (calls j).nowMs ≤ x) n

theorem evaluate_congr {a : Args} {w w' : Window} (h : evicted a w = evicted a w') :
    evaluate a w = evaluate a w' := by
  simp only [evaluate, h]

theorem evicted_empty (a : Args) : evicted a {} = SortedSet.empty :=
  SortedSet.eq_of_entries_eq rfl

theorem evaluate_fresh {a : Args} (hl : 1 ≤ a.limit) : (evaluate a {}).2.allowed = true := by
  have hroom : (((SortedSet.empty : SortedSet String ℤ).card : ℕ) : ℤ) < a.limit := by
    simp only [SortedSet.card, SortedSet.empty, List.length_nil]
    omega
  simp [evaluate, evicted_empty, hroom]

theorem keptAt_eq_windowAt {calls : ℕ → Args} {k : ℕ}
    (h : ∀ j < k, ¬(calls j).ttlSeconds * 1000 ≤ (calls (j + 1)).nowMs - (calls j).nowMs) :
    keptAt calls k = windowAt calls k := by
  induction k with
  | zero => rfl
  | succ k ih =>
    have hkept := ih (fun j hj => h j (by omega))
    simp only [keptAt, windowAt, hkept, expired, evaluate_ttlSeconds, h k (by omega), decide_false,
      Bool.false_eq_true, ↓reduceIte]

section

variable {policy : SlidingWindowPolicy} {t : ℕ → ℤ} {ids : ℕ → String} {n : ℕ}

/-- A key that outlives the window holds nothing in the window when it is lost. -/
theorem evaluate_keptAt (hw : 1 ≤ policy.windowSeconds)
    (hle : policy.windowSeconds ≤ policy.ttlSeconds) (ht : ∀ i j, i ≤ j → j < n → t i ≤ t j)
    (hid : ∀ i j, i < j → j < n → ids i ≠ ids j) {k : ℕ} (hk : k < n) :
    evaluate (checks policy t ids k) (keptAt (checks policy t ids) k) =
      evaluate (checks policy t ids k) (windowAt (checks policy t ids) k) := by
  induction k with
  | zero => rfl
  | succ k ih =>
    have hkept := ih (by omega)
    by_cases hgap : policy.ttlSeconds * 1000 ≤ t (k + 1) - t k
    · apply evaluate_congr
      have hlaw : (evicted (checks policy t ids (k + 1))
          (windowAt (checks policy t ids) (k + 1))).entries.Perm
          (stamps (checks policy t ids) (t (k + 1) - policy.windowSeconds * 1000) (k + 1)) :=
        evicted_law (by omega) ht hid hk
      have hstamps : stamps (checks policy t ids) (t (k + 1) - policy.windowSeconds * 1000)
          (k + 1) = [] := by
        simp only [stamps, List.map_eq_nil_iff, List.filter_eq_nil_iff, List.mem_range]
        intro j hj
        have hj' := ht j k (by omega) (by omega)
        have hout : (checks policy t ids j).nowMs ≤ t (k + 1) - policy.windowSeconds * 1000 := by
          simp only [checks, calls]
          omega
        simp [not_lt.mpr hout]
      have hold : evicted (checks policy t ids (k + 1)) (windowAt (checks policy t ids) (k + 1)) =
          SortedSet.empty := by
        apply SortedSet.eq_of_entries_eq
        rw [hstamps] at hlaw
        exact List.perm_nil.mp hlaw
      have hnew : keptAt (checks policy t ids) (k + 1) = {} := by
        simp [keptAt, expired, evaluate_ttlSeconds, checks, calls, hgap]
      rw [hold, hnew, evicted_empty]
    · have hnew : keptAt (checks policy t ids) (k + 1) =
          windowAt (checks policy t ids) (k + 1) := by
        rw [keptAt, windowAt, hkept]
        simp [expired, evaluate_ttlSeconds, checks, calls, hgap]
      rw [hnew]

theorem passes_eq_admissions (hw : 1 ≤ policy.windowSeconds)
    (hle : policy.windowSeconds ≤ policy.ttlSeconds) (ht : ∀ i j, i ≤ j → j < n → t i ≤ t j)
    (hid : ∀ i j, i < j → j < n → ids i ≠ ids j) (windowMs x : ℤ) {m : ℕ} (hm : m ≤ n) :
    passes (checks policy t ids) windowMs x m = admissions (checks policy t ids) windowMs x m := by
  induction m with
  | zero => simp [passes, admissions]
  | succ m ih =>
    have hpassed : passed (checks policy t ids) m = admitted (checks policy t ids) m := by
      rw [passed, admitted, replyAt, evaluate_keptAt hw hle ht hid (by omega)]
    rw [passes, admissions, Nat.count_succ, Nat.count_succ, ← passes, ← admissions,
      ih (by omega), hpassed]

end

def burst (policy : SlidingWindowPolicy) (k : ℕ) : ℤ :=
  if (k : ℤ) < policy.limit then 0 else policy.ttlSeconds * 1000

def distinct (k : ℕ) : String := String.ofList (.replicate k 'a')

theorem distinct_ne {i j : ℕ} (h : i ≠ j) : distinct i ≠ distinct j := by
  intro he
  have hlen := congrArg (fun s : String => s.toList.length) he
  exact h (by simpa [distinct] using hlen)

theorem burst_mono {policy : SlidingWindowPolicy} (ht : 1 ≤ policy.ttlSeconds) {i j : ℕ}
    (hij : i ≤ j) : burst policy i ≤ burst policy j := by
  simp only [burst]
  split_ifs <;> omega

theorem burst_passed {policy : SlidingWindowPolicy} (hl : 1 ≤ policy.limit)
    (hw : 1 ≤ policy.windowSeconds) (ht : 1 ≤ policy.ttlSeconds) {k : ℕ}
    (hk : k < policy.limit.toNat + 1) :
    passed (checks policy (burst policy) distinct) k = true := by
  obtain hlast | hfirst : k = policy.limit.toNat ∨ k < policy.limit.toNat := by omega
  · obtain ⟨m, rfl⟩ : ∃ m, k = m + 1 := ⟨k - 1, by omega⟩
    have hgap : burst policy (m + 1) - burst policy m = policy.ttlSeconds * 1000 := by
      simp only [burst]
      split_ifs <;> omega
    have hkept : keptAt (checks policy (burst policy) distinct) (m + 1) = {} := by
      simp [keptAt, expired, evaluate_ttlSeconds, checks, calls, hgap]
    rw [passed, hkept]
    exact evaluate_fresh hl
  · have hkept : keptAt (checks policy (burst policy) distinct) k =
        windowAt (checks policy (burst policy) distinct) k := by
      apply keptAt_eq_windowAt
      intro j hj
      have hgap : burst policy (j + 1) - burst policy j = 0 := by
        simp only [burst]
        split_ifs <;> omega
      simp only [checks, calls, hgap]
      omega
    have hiff : admitted (checks policy (burst policy) distinct) k = true ↔
        (admissions (checks policy (burst policy) distinct) (policy.windowSeconds * 1000)
          (burst policy k) k : ℤ) < policy.limit :=
      admitted_iff_admissions (n := k + 1) (by omega) (fun i j hij _ => burst_mono ht hij)
        (fun i j hij _ => distinct_ne hij.ne) (by omega)
    have hcount : admissions (checks policy (burst policy) distinct)
        (policy.windowSeconds * 1000) (burst policy k) k ≤ k := Nat.count_le _
    rw [passed, hkept, ← replyAt, ← admitted, hiff]
    omega

/-- The cap of `limit` admissions in any window survives the expiry of the key exactly when the
key is kept for at least as long as the window. -/
theorem cap_survives_expiry_iff (policy : SlidingWindowPolicy) (hl : 1 ≤ policy.limit)
    (hw : 1 ≤ policy.windowSeconds) (ht : 1 ≤ policy.ttlSeconds) :
    (∀ (t : ℕ → ℤ) (ids : ℕ → String) (n : ℕ), (∀ i j, i ≤ j → j < n → t i ≤ t j) →
      (∀ i j, i < j → j < n → ids i ≠ ids j) →
      ∀ x, (passes (checks policy t ids) (policy.windowSeconds * 1000) x n : ℤ) ≤ policy.limit) ↔
    policy.windowSeconds ≤ policy.ttlSeconds := by
  constructor
  · intro h
    by_contra hlt
    have hcap := h (burst policy) distinct (policy.limit.toNat + 1)
      (fun i j hij _ => burst_mono ht hij) (fun i j hij _ => distinct_ne hij.ne)
      (policy.ttlSeconds * 1000)
    have hall : passes (checks policy (burst policy) distinct) (policy.windowSeconds * 1000)
        (policy.ttlSeconds * 1000) (policy.limit.toNat + 1) = policy.limit.toNat + 1 := by
      rw [passes, Nat.count_iff_forall]
      intro k hk
      refine ⟨burst_passed hl hw ht hk, ?_⟩
      simp only [checks, calls, burst]
      split_ifs <;> omega
    rw [hall] at hcap
    push_cast at hcap
    omega
  · intro hle t ids n htime hid x
    rw [passes_eq_admissions hw hle htime hid _ _ le_rfl]
    exact admissions_le_limit (by omega) htime hid (by omega) x le_rfl

theorem cap_survives_minute :
    (passes (checks ⟨1, 60, 3600, .failClosed⟩ (fun k => 40000 * k) distinct) 60000 80000 3 : ℤ) ≤
      1 :=
  (cap_survives_expiry_iff ⟨1, 60, 3600, .failClosed⟩ (by decide) (by decide) (by decide)).mpr
    (by decide) (fun k => 40000 * k) distinct 3 (fun i j hij _ => by simpa using hij)
    (fun i j hij _ => distinct_ne hij.ne) 80000

/-- One request a day, with the key kept for an hour: the next one passes as soon as it is gone. -/
theorem daily_cap_exceeded_after_expiry :
    ¬∀ (t : ℕ → ℤ) (ids : ℕ → String) (n : ℕ), (∀ i j, i ≤ j → j < n → t i ≤ t j) →
      (∀ i j, i < j → j < n → ids i ≠ ids j) →
      ∀ x, (passes (checks ⟨1, 86400, 3600, .failClosed⟩ t ids) 86400000 x n : ℤ) ≤ 1 := by
  intro h
  have hcap := h (fun k => 3600001 * k) distinct 2 (fun i j hij _ => by simpa using hij)
    (fun i j hij _ => distinct_ne hij.ne) 3600001
  revert hcap
  decide +kernel

end Sentinel.SlidingWindowExpiry
