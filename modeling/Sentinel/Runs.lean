import Mathlib.Logic.Relation
import Mathlib.Data.List.Basic
import Mathlib.Data.List.Infix
import Mathlib.Tactic.SplitIfs

namespace Sentinel.Runs

variable {σ ι : Type*}

/-- `t` is reached from `s` by finitely many labelled steps. -/
def Reaches (step : σ → ι → σ → Prop) : σ → σ → Prop :=
  Relation.ReflTransGen (fun s t => ∃ i, step s i t)

/-- The steps whose label meets a condition in the state they start from. -/
def Guarded (ok : σ → ι → Prop) (step : σ → ι → σ → Prop) (s : σ) (i : ι) (t : σ) : Prop :=
  ok s i ∧ step s i t

variable {step : σ → ι → σ → Prop} {s t u : σ}

theorem Reaches.refl (s : σ) : Reaches step s s := Relation.ReflTransGen.refl

theorem Reaches.tail {i : ι} (h : Reaches step s t) (hi : step t i u) : Reaches step s u :=
  Relation.ReflTransGen.tail h ⟨i, hi⟩

theorem Reaches.head {i : ι} (hi : step s i t) (h : Reaches step t u) : Reaches step s u :=
  Relation.ReflTransGen.head ⟨i, hi⟩ h

theorem Reaches.invariant {I : σ → Prop} (hstep : ∀ s i t, I s → step s i t → I t)
    (h : Reaches step s t) (hs : I s) : I t := by
  induction h with
  | refl => exact hs
  | tail _ hi ih =>
    obtain ⟨i, hi⟩ := hi
    exact hstep _ i _ ih hi

theorem Reaches.mono {step' : σ → ι → σ → Prop} (h : Reaches step s t)
    (hle : ∀ s i t, step s i t → step' s i t) : Reaches step' s t := by
  induction h with
  | refl => exact Reaches.refl s
  | tail _ hi ih =>
    obtain ⟨i, hi⟩ := hi
    exact ih.tail (hle _ i _ hi)

inductive Trace (step : σ → ι → σ → Prop) : σ → List ι → σ → Prop
  | nil (s : σ) : Trace step s [] s
  | cons {s t u : σ} {i : ι} {is : List ι} :
      step s i t → Trace step t is u → Trace step s (i :: is) u

theorem Trace.reaches {is : List ι} (h : Trace step s is t) : Reaches step s t := by
  induction h with
  | nil s => exact Reaches.refl s
  | cons hi _ ih => exact ih.head hi

theorem Trace.mono {step' : σ → ι → σ → Prop} {is : List ι} (h : Trace step s is t)
    (hle : ∀ s i t, step s i t → step' s i t) : Trace step' s is t := by
  induction h with
  | nil s => exact .nil s
  | cons hi _ ih => exact .cons (hle _ _ _ hi) ih

theorem Trace.guarded {ok : ι → Prop} {is : List ι} (h : Trace step s is t)
    (hok : ∀ i ∈ is, ok i) : Trace (Guarded (fun _ i => ok i) step) s is t := by
  induction h with
  | nil s => exact .nil s
  | cons hi _ ih =>
    exact .cons ⟨hok _ (.head _), hi⟩ (ih (fun i hmem => hok i (.tail _ hmem)))

theorem Trace.of_foldlM {next : σ → ι → Option σ} (is : List ι)
    (h : is.foldlM next s = some t) : Trace (fun s i t => next s i = some t) s is t := by
  induction is generalizing s with
  | nil =>
    simp only [List.foldlM_nil, Option.pure_def, Option.some.injEq] at h
    subst h
    exact .nil s
  | cons i is ih =>
    rw [List.foldlM_cons] at h
    obtain ⟨u, hu, ht⟩ := Option.bind_eq_some_iff.mp h
    exact .cons hu (ih ht)

theorem Reaches.of_foldlM {next : σ → ι → Option σ} (is : List ι)
    (h : is.foldlM next s = some t) : Reaches (fun s i t => next s i = some t) s t :=
  (Trace.of_foldlM is h).reaches

theorem Trace.of_check (next : σ → ι → Option σ) (check : σ → Bool) (s : σ) (is : List ι)
    (h : (is.foldlM next s).any check = true) :
    ∃ t, Trace (fun s i t => next s i = some t) s is t ∧ check t = true := by
  obtain ⟨t, ht, hc⟩ := (Option.any_eq_true check (is.foldlM next s)).mp h
  exact ⟨t, Trace.of_foldlM is ht, hc⟩

theorem Trace.of_guarded_check (ok : σ → ι → Prop) [∀ s i, Decidable (ok s i)]
    (next : σ → ι → Option σ) (check : σ → Bool) (s : σ) (is : List ι)
    (h : (is.foldlM (fun s i => if ok s i then next s i else none) s).any check = true) :
    ∃ t, Trace (Guarded ok (fun s i t => next s i = some t)) s is t ∧ check t = true := by
  obtain ⟨t, ht, hc⟩ := Trace.of_check _ check s is h
  refine ⟨t, ht.mono (fun s i t hi => ?_), hc⟩
  split_ifs at hi with hok
  exact ⟨hok, hi⟩

theorem Reaches.of_check (next : σ → ι → Option σ) (check : σ → Bool) (s : σ) (is : List ι)
    (h : (is.foldlM next s).any check = true) :
    ∃ t, Reaches (fun s i t => next s i = some t) s t ∧ check t = true := by
  obtain ⟨t, ht, hc⟩ := Trace.of_check next check s is h
  exact ⟨t, ht.reaches, hc⟩

theorem Reaches.of_guarded_check (ok : σ → ι → Prop) [∀ s i, Decidable (ok s i)]
    (next : σ → ι → Option σ) (check : σ → Bool) (s : σ) (is : List ι)
    (h : (is.foldlM (fun s i => if ok s i then next s i else none) s).any check = true) :
    ∃ t, Reaches (Guarded ok (fun s i t => next s i = some t)) s t ∧ check t = true := by
  obtain ⟨t, ht, hc⟩ := Trace.of_guarded_check ok next check s is h
  exact ⟨t, ht.reaches, hc⟩

/-- When one step keeps `P` exactly if `ok` allows it, a run keeps `P` throughout exactly if `ok`
allows each of its steps. -/
theorem forall_foldl_iff {f : σ → ι → σ} {I P : σ → Prop} {ok : σ → ι → Prop}
    (hI : ∀ s i, I s → I (f s i)) (hstep : ∀ s i, I s → P s → (P (f s i) ↔ ok s i)) {s : σ}
    (hIs : I s) (hPs : P s) (is : List ι) :
    (∀ js, js <+: is → P (js.foldl f s)) ↔
      ∀ js j, js ++ [j] <+: is → ok (js.foldl f s) j := by
  have hI' : ∀ js : List ι, I (js.foldl f s) := by
    intro js
    induction js using List.reverseRecOn with
    | nil => exact hIs
    | append_singleton js j ih =>
      rw [List.foldl_concat]
      exact hI _ j ih
  constructor
  · intro h js j hj
    have hjs : js <+: is := (List.prefix_append js [j]).trans hj
    have hP := h _ hj
    rw [List.foldl_concat] at hP
    exact (hstep _ j (hI' js) (h js hjs)).mp hP
  · intro h js
    induction js using List.reverseRecOn with
    | nil => exact fun _ => hPs
    | append_singleton js j ih =>
      intro hj
      have hjs : js <+: is := (List.prefix_append js [j]).trans hj
      rw [List.foldl_concat]
      exact (hstep _ j (hI' js) (ih hjs)).mpr (h js j hj)

end Sentinel.Runs
