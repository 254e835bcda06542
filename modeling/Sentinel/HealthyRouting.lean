import Sentinel.Health
import Sentinel.Runs
import Sentinel.Streaks

namespace Sentinel.HealthyRouting

open Router Selection Health Runs Streaks

/-- The health checker and the selector over one pool, with the results of the checks of every
instance so far. -/
structure World where
  health : Health.State
  selector : WeightedRoundRobinSelector
  history : Ref → List Bool

inductive Action
  | check (r : Ref) (healthy : Bool)
  | select (s : String) (shuffle : Shuffle)

def World.select (w : World) (s : String) (shuffle : Shuffle) :
    WeightedRoundRobinSelector × Option Ref :=
  w.selector.select w.health.fleet shuffle s (instancesOf w.health.fleet s)

def next (w : World) : Action → Option World
  | .check r healthy =>
    if r ∈ pool w.health.fleet then
      some { w with
        health := judge w.health r healthy
        history := Function.update w.history r (w.history r ++ [healthy]) }
    else none
  | .select s shuffle => some { w with selector := (w.select s shuffle).1 }

def step (w : World) (a : Action) (w' : World) : Prop := next w a = some w'

/-- A pool as the bootstrap loader builds it, with ids that are distinct across the pool. -/
structure Bootstrapped (fleet : Fleet) : Prop where
  unknown : ∀ r ∈ pool fleet, (fleet.get r).status = .unknown
  distinct : ((pool fleet).map (fun r => (fleet.get r).id)).Nodup

def start (c : HealthChecker) (fleet : Fleet) : World :=
  ⟨⟨{ c with consecutiveSuccesses := .empty, consecutiveFailures := .empty }, fleet⟩, {},
    fun _ => []⟩

/-- The checker's view of an instance is what the history of its own checks says. -/
structure Judged (c : HealthChecker) (i : BackendInstance) (h : List Bool) : Prop where
  successes : c.successes i.id = streak true h
  failures : c.failures i.id = streak false h
  healthy : i.status = .healthy ↔
    Fit true false c.successThreshold.toNat c.failureThreshold.toNat h

structure Inv (c : HealthChecker) (fleet : Fleet) (w : World) : Prop where
  successThreshold : w.health.checker.successThreshold = c.successThreshold
  failureThreshold : w.health.checker.failureThreshold = c.failureThreshold
  config : SameConfig fleet w.health.fleet
  coherent : Coherent w.health.fleet w.selector
  judged : ∀ r ∈ pool fleet, Judged w.health.checker (w.health.fleet.get r) (w.history r)

section

variable {w w' : World} {a : Action} {r r' : Ref} {st : State} {h : List Bool}

theorem step_cases (hstep : step w a w') :
    (∃ r healthy, a = .check r healthy ∧ r ∈ pool w.health.fleet ∧
      w' = { w with
        health := judge w.health r healthy
        history := Function.update w.history r (w.history r ++ [healthy]) }) ∨
    (∃ s shuffle, a = .select s shuffle ∧ w' = { w with selector := (w.select s shuffle).1 }) := by
  cases a with
  | check r healthy =>
    simp only [step, next] at hstep
    split_ifs at hstep with hr
    exact .inl ⟨r, healthy, rfl, hr, (Option.some.inj hstep).symm⟩
  | select s shuffle => exact .inr ⟨s, shuffle, rfl, (Option.some.inj hstep).symm⟩

theorem Judged.check (hs : 1 ≤ st.checker.successThreshold)
    (hf : 1 ≤ st.checker.failureThreshold) (hj : Judged st.checker (st.fleet.get r) h)
    (healthy : Bool) :
    Judged (judge st r healthy).checker ((judge st r healthy).fleet.get r) (h ++ [healthy]) := by
  have hid : ((judge st r healthy).fleet.get r).id = (st.fleet.get r).id :=
    (judge_sameConfig st healthy r).id_eq r
  have hsucc : (judge st r healthy).checker.successes (st.fleet.get r).id =
      streak true (h ++ [healthy]) := by
    cases healthy <;>
      simp [judge, HealthChecker.count_successes, hj.successes, streak_append_self,
        streak_append_ne]
  have hfail : (judge st r healthy).checker.failures (st.fleet.get r).id =
      streak false (h ++ [healthy]) := by
    cases healthy <;>
      simp [judge, HealthChecker.count_failures, hj.failures, streak_append_self,
        streak_append_ne]
  refine ⟨by rw [hid, hsucc], by rw [hid, hfail], ?_⟩
  rw [judge_status, hsucc, hfail, judge_checker, HealthChecker.count_successThreshold,
    HealthChecker.count_failureThreshold]
  cases healthy with
  | true =>
    rw [fit_append_first (by decide) (by omega), ← hj.healthy, Int.toNat_le]
    by_cases hle : st.checker.successThreshold ≤ streak true (h ++ [true]) <;> simp [hle]
  | false =>
    rw [fit_append_second (by decide) (by omega), ← hj.healthy, Int.lt_toNat]
    by_cases hle : st.checker.failureThreshold ≤ streak false (h ++ [false])
    · simp [hle, not_lt_of_ge hle]
    · simp [hle, lt_of_not_ge hle]

theorem Judged.check_other (hne : r' ≠ r) (hid : (st.fleet.get r').id ≠ (st.fleet.get r).id)
    (hj : Judged st.checker (st.fleet.get r') h) (healthy : Bool) :
    Judged (judge st r healthy).checker ((judge st r healthy).fleet.get r') h := by
  rw [judge_get_of_ne st healthy hne, judge_checker]
  obtain ⟨hs, hf, hh⟩ := hj
  refine ⟨?_, ?_, ?_⟩
  · rw [HealthChecker.count_successes, if_neg hid, hs]
  · rw [HealthChecker.count_failures, if_neg hid, hf]
  · rw [hh, HealthChecker.count_successThreshold, HealthChecker.count_failureThreshold]

end

section

variable {c : HealthChecker} {fleet : Fleet} {w w' : World} {a : Action}

theorem Bootstrapped.eq_of_id {fleet' : Fleet} (hboot : Bootstrapped fleet)
    (hconfig : SameConfig fleet fleet') {r r' : Ref} (hr : r ∈ pool fleet) (hr' : r' ∈ pool fleet)
    (he : (fleet'.get r).id = (fleet'.get r').id) : r = r' := by
  rw [hconfig.id_eq, hconfig.id_eq] at he
  exact List.inj_on_of_nodup_map hboot.distinct hr hr' he

theorem Bootstrapped.distinguished (hboot : Bootstrapped fleet) : Distinguished fleet := by
  intro s r hr r' hr' he
  apply hboot.eq_of_id (.refl fleet) (mem_pool_of_mem_instancesOf hr)
    (mem_pool_of_mem_instancesOf hr')
  exact congrArg Prod.fst he

theorem inv_start (hs : 1 ≤ c.successThreshold) (hboot : Bootstrapped fleet) :
    Inv c fleet (start c fleet) := by
  refine ⟨rfl, rfl, .refl fleet, coherent_empty fleet, fun r hr => ⟨rfl, rfl, ?_⟩⟩
  have hfit : ¬Fit true false c.successThreshold.toNat c.failureThreshold.toNat [] :=
    not_fit_nil (by omega)
  simp only [start, hboot.unknown r hr, reduceCtorEq, hfit]

theorem inv_step (hs : 1 ≤ c.successThreshold) (hf : 1 ≤ c.failureThreshold)
    (hboot : Bootstrapped fleet) (hi : Inv c fleet w) (hstep : step w a w') : Inv c fleet w' := by
  obtain ⟨r, healthy, rfl, hr, rfl⟩ | ⟨s, shuffle, rfl, rfl⟩ := step_cases hstep
  · have hconfig := judge_sameConfig w.health healthy r
    rw [pool_eq_of_sameConfig hi.config] at hr
    refine ⟨?_, ?_, hi.config.trans hconfig, hconfig.coherent hi.coherent, fun r' hr' => ?_⟩
    · rw [← hi.successThreshold]
      exact HealthChecker.count_successThreshold _ _ _
    · rw [← hi.failureThreshold]
      exact HealthChecker.count_failureThreshold _ _ _
    · by_cases hrr : r' = r
      · subst hrr
        simp only [Function.update_self]
        rw [← hi.successThreshold] at hs
        rw [← hi.failureThreshold] at hf
        exact (hi.judged r' hr').check hs hf healthy
      · simp only [Function.update_of_ne hrr]
        exact (hi.judged r' hr').check_other hrr
          (fun he => hrr (hboot.eq_of_id hi.config hr' hr he)) healthy
  · exact { hi with coherent := select_coherent hi.coherent }

end

/-- In every interleaving of checks and selections, `select` returns an instance whose own checks
have made it fit, and raises exactly when no instance of the service is fit. -/
theorem select_follows_health (c : HealthChecker) (hs : 1 ≤ c.successThreshold)
    (hf : 1 ≤ c.failureThreshold) (fleet : Fleet) (hboot : Bootstrapped fleet) (w : World)
    (h : Reaches step (start c fleet) w) (s : String) (shuffle : Shuffle) :
    (∀ r, (w.select s shuffle).2 = some r → r ∈ instancesOf fleet s ∧
      Fit true false c.successThreshold.toNat c.failureThreshold.toNat (w.history r)) ∧
    ((w.select s shuffle).2 = none ↔ ∀ r ∈ instancesOf fleet s,
      ¬Fit true false c.successThreshold.toNat c.failureThreshold.toNat (w.history r)) := by
  have hi : Inv c fleet w :=
    h.invariant (fun _ _ _ hi hstep => inv_step hs hf hboot hi hstep) (inv_start hs hboot)
  have hlist := hi.config.instancesOf_eq s
  have hfit : ∀ r ∈ instancesOf fleet s, ((w.health.fleet.get r).status = .healthy ↔
      Fit true false c.successThreshold.toNat c.failureThreshold.toNat (w.history r)) := by
    intro r hr
    have hj := (hi.judged r (mem_pool_of_mem_instancesOf hr)).healthy
    rwa [hi.successThreshold, hi.failureThreshold] at hj
  constructor
  · intro r hselect
    have hr := select_mem hi.coherent hselect
    have hdist := hi.config.distinguished hboot.distinguished
    have hhealthy := select_healthy hdist hi.coherent hselect
    rw [hlist] at hr
    exact ⟨hr, (hfit r hr).mp hhealthy⟩
  · unfold World.select
    rw [select_eq_none_iff, hlist]
    exact forall₂_congr (fun r hr => not_congr (hfit r hr))

def usersPool : Fleet :=
  { get := fun r => { id := if r = 0 then "u1" else "u2", host := "users", port := 8080 + r }
    byService := Dict.empty.set "users-svc" [0, 1] }

def usersChecker : HealthChecker :=
  { timeoutS := 1, failureThreshold := 3, successThreshold := 2 }

theorem select_follows_two_passes : ∃ w, Reaches step (start usersChecker usersPool) w ∧
    (w.select "users-svc" ⟨id, .refl⟩).2 = some 1 ∧ Fit true false 2 3 (w.history 1) := by
  have hboot : Bootstrapped usersPool := ⟨fun _ _ => rfl, by decide⟩
  obtain ⟨w, hw, hc⟩ := Reaches.of_check next
    (fun w => (w.select "users-svc" ⟨id, .refl⟩).2 = some 1) (start usersChecker usersPool)
    [.check 0 true, .check 1 true, .select "users-svc" ⟨id, .refl⟩, .check 0 false, .check 1 true]
    (by decide +kernel)
  have hselect := of_decide_eq_true hc
  have h := select_follows_health usersChecker (by decide) (by decide) usersPool hboot w hw
    "users-svc" ⟨id, .refl⟩
  exact ⟨w, hw, hselect, (h.1 1 hselect).2⟩

end Sentinel.HealthyRouting
