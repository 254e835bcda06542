import Sentinel.Runs
import Mathlib.Data.List.Forall2

namespace Sentinel.Simulation

open Runs

variable {σ τ ι κ : Type*} {step : σ → ι → σ → Prop} {step' : τ → κ → τ → Prop}

/-- When each step of one system is some steps of the other, so is each run. -/
theorem reaches_of_simulation {R : σ → τ → Prop}
    (hstep : ∀ s i t a, R s a → step s i t → ∃ b, Reaches step' a b ∧ R t b)
    {s t : σ} {a : τ} (h : Reaches step s t) (hR : R s a) : ∃ b, Reaches step' a b ∧ R t b := by
  induction h with
  | refl => exact ⟨a, .refl a, hR⟩
  | tail _ hi ih =>
    obtain ⟨i, hi⟩ := hi
    obtain ⟨b, hab, hb⟩ := ih
    obtain ⟨c, hbc, hc⟩ := hstep _ i _ b hb hi
    exact ⟨c, hab.trans hbc, hc⟩

/-- When each step of one system is a like step of the other or none at all, each run has a like
run of the other. -/
theorem trace_of_simulation {R : σ → τ → Prop} {L : κ → ι → Prop}
    (hstep : ∀ s i t a, R s a → step s i t → R t a ∨ ∃ j b, L j i ∧ step' a j b ∧ R t b)
    {s t : σ} {is : List ι} (h : Trace step s is t) {a : τ} (hR : R s a) :
    ∃ js b, Trace step' a js b ∧ List.SublistForall₂ L js is ∧ R t b := by
  induction h generalizing a with
  | nil s => exact ⟨[], a, .nil a, .nil, hR⟩
  | @cons s t u i is hi _ ih =>
    obtain ht | ⟨j, b, hj, hb, ht⟩ := hstep s i t a hR hi
    · obtain ⟨js, c, hjs, hsub, hc⟩ := ih ht
      exact ⟨js, c, hjs, .cons_right hsub, hc⟩
    · obtain ⟨js, c, hjs, hsub, hc⟩ := ih ht
      exact ⟨j :: js, c, .cons hb hjs, .cons hj hsub, hc⟩

variable {ο : Type*}

def outputs (next : σ → ι → σ) (out : σ → ι → ο) : σ → List ι → List ο
  | _, [] => []
  | s, i :: is => out s i :: outputs next out (next s i) is

/-- Related states give the same answers for ever, when each answer is the same and each step
keeps them related. -/
theorem outputs_eq_of_simulation {next : σ → ι → σ} {out : σ → ι → ο} {next' : τ → ι → τ}
    {out' : τ → ι → ο} {R : σ → τ → Prop} (hout : ∀ s a i, R s a → out s i = out' a i)
    (hnext : ∀ s a i, R s a → R (next s i) (next' a i)) {s : σ} {a : τ} (h : R s a)
    (is : List ι) : outputs next out s is = outputs next' out' a is := by
  induction is generalizing s a with
  | nil => rfl
  | cons i is ih => rw [outputs, outputs, hout s a i h, ih (hnext s a i h)]

end Sentinel.Simulation
