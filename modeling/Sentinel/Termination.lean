import Sentinel.Runs

namespace Sentinel.Termination

open Runs

variable {σ ι : Type*} {step : σ → ι → σ → Prop} {μ : σ → ℕ} {s t : σ}

/-- A measure that falls with every step bounds the length of every run. -/
theorem length_add_le (hstep : ∀ s i t, step s i t → μ t < μ s) {is : List ι}
    (h : Trace step s is t) : is.length + μ t ≤ μ s := by
  induction h with
  | nil s => simp
  | cons hi _ ih =>
    have hlt := hstep _ _ _ hi
    simp only [List.length_cons]
    omega

/-- When the steps keep an invariant under which the measure falls, every run can be carried on
until no step is left. -/
theorem exists_stuck {I : σ → Prop} (hI : ∀ s i t, I s → step s i t → I t)
    (hstep : ∀ s i t, I s → step s i t → μ t < μ s) (hs : I s) :
    ∃ t, Reaches step s t ∧ ∀ i u, ¬step t i u := by
  induction hn : μ s using Nat.strong_induction_on generalizing s with
  | _ n ih =>
    by_cases hnext : ∃ i t, step s i t
    · obtain ⟨i, t, hi⟩ := hnext
      obtain ⟨u, hu, hstuck⟩ := ih (μ t) (hn ▸ hstep s i t hs hi) (hI s i t hs hi) rfl
      exact ⟨u, hu.head hi, hstuck⟩
    · exact ⟨s, .refl s, fun i t hi => hnext ⟨i, t, hi⟩⟩

end Sentinel.Termination
