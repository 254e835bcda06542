import Mathlib.Algebra.BigOperators.Intervals
import Mathlib.Algebra.Order.Group.MinMax
import Mathlib.Tactic.Abel

namespace Sentinel.CappedMeter

open Finset

variable {M : Type*} [AddCommGroup M] [LinearOrder M]

/-- A level that starts full; at each step some of it is spent, then it gains, but never
beyond the cap. -/
def level (cap : M) (gain spent : ℕ → M) : ℕ → M
  | 0 => cap
  | k + 1 => min cap (level cap gain spent k - spent k + gain k)

variable [IsOrderedAddMonoid M] (cap : M) (gain spent : ℕ → M)

/-- The nested caps unfold into one bound for each earlier step at which the meter may last
have been full. -/
theorem le_level_iff (k : ℕ) (x : M) :
    x ≤ level cap gain spent k ↔
      ∀ i ≤ k, ∑ j ∈ Ico i k, spent j + x ≤ cap + ∑ j ∈ Ico i k, gain j := by
  induction k generalizing x with
  | zero => simp [level]
  | succ k ih =>
    have hstep : x ≤ level cap gain spent k - spent k + gain k ↔
        x + spent k - gain k ≤ level cap gain spent k := by
      rw [sub_add_eq_add_sub, le_sub_iff_add_le, sub_le_iff_le_add]
    have hsplit : ∀ i ≤ k, (∑ j ∈ Ico i (k + 1), spent j + x ≤
        cap + ∑ j ∈ Ico i (k + 1), gain j ↔
        ∑ j ∈ Ico i k, spent j + (x + spent k - gain k) ≤ cap + ∑ j ∈ Ico i k, gain j) := by
      intro i hi
      have he : ∑ j ∈ Ico i k, spent j + spent k + x - gain k =
          ∑ j ∈ Ico i k, spent j + (x + spent k - gain k) := by abel
      rw [sum_Ico_succ_top hi, sum_Ico_succ_top hi, ← add_assoc cap, ← sub_le_iff_le_add, he]
    rw [level, le_min_iff, hstep, ih]
    constructor
    · rintro ⟨hcap, hi⟩ i hik
      obtain rfl | hlt := Nat.eq_or_lt_of_le hik
      · simpa using hcap
      · exact (hsplit i (Nat.lt_succ_iff.mp hlt)).mpr (hi i (Nat.lt_succ_iff.mp hlt))
    · intro h
      refine ⟨by simpa using h (k + 1) le_rfl, fun i hi => (hsplit i hi).mp (h i (by omega))⟩

theorem sum_spent_le (hcap : 0 ≤ cap) (hgain : ∀ k, 0 ≤ gain k)
    (hspent : ∀ k, spent k = 0 ∨ spent k ≤ level cap gain spent k) {i j : ℕ} (hij : i ≤ j) :
    ∑ k ∈ Ico i (j + 1), spent k ≤ cap + ∑ k ∈ Ico i j, gain k := by
  induction j, hij using Nat.le_induction with
  | base =>
    obtain h | h := hspent i
    · simpa [h] using hcap
    · simpa using (le_level_iff cap gain spent i (spent i)).mp h i le_rfl
  | succ j hij ih =>
    obtain h | h := hspent (j + 1)
    · rw [sum_Ico_succ_top (by omega), h, add_zero, sum_Ico_succ_top hij gain, ← add_assoc]
      exact ih.trans (le_add_of_nonneg_right (hgain j))
    · rw [sum_Ico_succ_top (by omega)]
      exact (le_level_iff cap gain spent (j + 1) (spent (j + 1))).mp h i (by omega)

end Sentinel.CappedMeter
