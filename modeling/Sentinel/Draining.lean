import Sentinel.Health
import Sentinel.Runs

namespace Sentinel.Draining

open Router Selection Health Runs

/-- The health checker at one of its awaits, and the selector over the same instances. -/
structure World where
  health : Health.State
  control : Health.Control
  selector : WeightedRoundRobinSelector

/-- `write` is the write of another task. -/
inductive Action
  | checker (signal : Health.Signal)
  | write (r : Ref) (status : InstanceStatus)
  | select (s : String) (shuffle : Shuffle)

def World.status (w : World) (r : Ref) : InstanceStatus := (w.health.fleet.get r).status

def World.select (w : World) (s : String) (shuffle : Shuffle) :
    WeightedRoundRobinSelector × Option Ref :=
  w.selector.select w.health.fleet shuffle s (instancesOf w.health.fleet s)

def next (w : World) : Action → Option World
  | .checker signal =>
    (resume w.health w.control signal).map (fun x => { w with health := x.1, control := x.2 })
  | .write r status =>
    some { w with health := { w.health with fleet := writeStatus w.health.fleet r status } }
  | .select s shuffle => some { w with selector := (w.select s shuffle).1 }

def step (w : World) (a : Action) (w' : World) : Prop := next w a = some w'

def start (c : HealthChecker) (fleet : Fleet) : World := ⟨⟨c, fleet⟩, .sleeping, {}⟩

def decisive (c : HealthChecker) (id : String) (healthy : Bool) : Bool :=
  if healthy then c.successThreshold ≤ c.successes id + 1
  else c.failureThreshold ≤ c.failures id + 1

/-- A decisive result comes in for an instance that was drained while its probe was awaited. -/
def overtaken (w : World) : Action → Bool
  | .checker (.probe p) =>
    match w.control, verdict p with
    | .probing r _, some healthy =>
      w.status r = .draining && decisive w.health.checker (w.health.fleet.get r).id healthy
    | _, _ => false
  | _ => false

section

variable {w w' : World} {a : Action} {r : Ref} {signal : Signal}

theorem judge_draining (st : State) (healthy : Bool)
    (hd : (st.fleet.get r).status = .draining) :
    ((judge st r healthy).fleet.get r).status = .draining ↔
      decisive st.checker (st.fleet.get r).id healthy = false := by
  rw [judge_status, judge_successes, judge_failures, hd]
  cases healthy <;> simp [decisive]

theorem checker_step (h : step w (.checker signal) w') :
    (∀ r, w.status r = .draining → w'.status r = .draining) ↔
      overtaken w (.checker signal) = false := by
  obtain ⟨⟨st, c⟩, hresume, rfl⟩ := Option.map_eq_some_iff.mp h
  obtain ⟨r, rest, p, healthy, ⟨hc, rfl, hp⟩, rfl, -⟩ | ⟨r, rest, p, ⟨hc, rfl, hp⟩, rfl, -⟩ |
    ⟨⟨hc, rfl⟩, rfl, -⟩ | ⟨⟨hc, rfl⟩, rfl, -⟩ := resume_cases hresume
  · by_cases hd : w.status r = .draining
    · have hjudge := judge_draining w.health healthy hd
      simp only [overtaken, hc, hp, hd, decide_true, Bool.true_and, ← hjudge]
      constructor
      · exact fun hkept => hkept r hd
      · intro hr r' hr'
        by_cases hne : r' = r
        · rw [hne]
          exact hr
        · unfold World.status
          rw [judge_get_of_ne w.health healthy hne]
          exact hr'
    · simp only [overtaken, hc, hp, hd, decide_false, Bool.false_and, iff_true]
      intro r' hr'
      have hne : r' ≠ r := by
        rintro rfl
        exact hd hr'
      unfold World.status
      rw [judge_get_of_ne w.health healthy hne]
      exact hr'
  · simp only [overtaken, hc, hp, iff_true]
    exact fun r hr => hr
  · simp only [overtaken, iff_true]
    exact fun r hr => hr
  · simp only [overtaken, iff_true]
    exact fun r hr => hr

theorem status_step (ha : ∀ status, a ≠ .write r status) (hok : overtaken w a = false)
    (h : step w a w') (hd : w.status r = .draining) : w'.status r = .draining := by
  cases a with
  | checker signal => exact (checker_step h).mpr hok r hd
  | write r' status =>
    cases h
    have hne : r ≠ r' := by
      rintro rfl
      exact ha status rfl
    unfold World.status writeStatus setInstance
    simp only [Function.update_of_ne hne]
    exact hd
  | select s shuffle =>
    cases h
    exact hd

structure Inv (fleet : Fleet) (w : World) : Prop where
  config : SameConfig fleet w.health.fleet
  coherent : Coherent w.health.fleet w.selector

theorem Inv.of_sameConfig {fleet : Fleet} (hi : Inv fleet w)
    (hconfig : SameConfig w.health.fleet w'.health.fleet) (hsel : w'.selector = w.selector) :
    Inv fleet w' := by
  refine ⟨hi.config.trans hconfig, ?_⟩
  rw [hsel]
  exact hconfig.coherent hi.coherent

theorem inv_step {fleet : Fleet} (hi : Inv fleet w) (h : step w a w') : Inv fleet w' := by
  cases a with
  | checker signal =>
    obtain ⟨⟨st, c⟩, hresume, rfl⟩ := Option.map_eq_some_iff.mp h
    obtain ⟨r, rest, p, healthy, -, rfl, -⟩ | ⟨r, rest, p, -, rfl, -⟩ | ⟨-, rfl, -⟩ | ⟨-, rfl, -⟩ :=
      resume_cases hresume
    · exact hi.of_sameConfig (judge_sameConfig w.health healthy r) rfl
    all_goals exact hi.of_sameConfig (.refl _) rfl
  | write r status =>
    cases h
    exact hi.of_sameConfig (writeStatus_sameConfig w.health.fleet r status) rfl
  | select s shuffle =>
    cases h
    exact ⟨hi.config, select_coherent hi.coherent⟩

theorem inv_of_reaches {c : HealthChecker} {fleet : Fleet} (h : Reaches step (start c fleet) w) :
    Inv fleet w :=
  h.invariant (fun _ _ _ hi hstep => inv_step hi hstep) ⟨.refl fleet, coherent_empty fleet⟩

end

/-- The steps of a run in which no other task writes the status of `r` and no decisive result
overtakes a drain. -/
def undisturbed (r : Ref) (w : World) (a : Action) : Prop :=
  (∀ status, a ≠ .write r status) ∧ overtaken w a = false

/-- A step of the health checker undoes a drain exactly when a decisive result overtakes it. Without
that, a drained instance stays drained until another task writes its status, and is not selected if
no two instances of a service share both id and weight. -/
theorem drain_kept (c : HealthChecker) (fleet : Fleet) (w : World)
    (h : Reaches step (start c fleet) w) :
    (∀ signal w', step w (.checker signal) w' →
      ((∀ r, w.status r = .draining → w'.status r = .draining) ↔
        overtaken w (.checker signal) = false)) ∧
    ∀ r, w.status r = .draining → ∀ w', Reaches (Guarded (undisturbed r) step) w w' →
      w'.status r = .draining ∧
        (Distinguished fleet → ∀ s shuffle, (w'.select s shuffle).2 ≠ some r) := by
  refine ⟨fun signal w' hstep => checker_step hstep, fun r hd w' hrun => ?_⟩
  have hd' : w'.status r = .draining :=
    hrun.invariant (I := fun w => w.status r = .draining)
      (fun _ _ _ hd hstep => status_step hstep.1.1 hstep.1.2 hstep.2 hd) hd
  have hi : Inv fleet w' :=
    hrun.invariant (I := Inv fleet) (fun _ _ _ hi hstep => inv_step hi hstep.2) (inv_of_reaches h)
  refine ⟨hd', fun hdist s shuffle hselect => ?_⟩
  have hhealthy := select_healthy (hi.config.distinguished hdist) hi.coherent hselect
  rw [World.status, hhealthy] at hd'
  exact absurd hd' (by decide)

def usersPool : Fleet :=
  { get := fun _ => { id := "u1", host := "users", port := 8080, status := .healthy }
    byService := Dict.empty.set "users-svc" [0] }

def usersChecker : HealthChecker :=
  { timeoutS := 1, failureThreshold := 3, successThreshold := 2 }

def drainedWhileProbing : World :=
  ⟨⟨usersChecker, writeStatus usersPool 0 .draining⟩, .probing 0 [], {}⟩

theorem reaches_drainedWhileProbing :
    Reaches step (start usersChecker usersPool) drainedWhileProbing :=
  Reaches.of_foldlM [.checker .wake, .write 0 .draining] rfl

theorem drain_kept_by_first_pass :
    ∃ w, Reaches (Guarded (undisturbed 0) step) drainedWhileProbing w ∧
      w.health.checker.successes "u1" = 1 ∧ w.status 0 = .draining ∧
      (w.select "users-svc" ⟨id, .refl⟩).2 ≠ some 0 := by
  have hdist : Distinguished usersPool := distinguished_of_singleton rfl
  have hrun : Reaches (Guarded (undisturbed 0) step) drainedWhileProbing
      ⟨judge drainedWhileProbing.health 0 true, .sleeping, {}⟩ :=
    (Reaches.refl _).tail (i := .checker (.probe (.response 200))) ⟨⟨by simp, by decide⟩, rfl⟩
  obtain ⟨hd, hselect⟩ := (drain_kept usersChecker usersPool drainedWhileProbing
    reaches_drainedWhileProbing).2 0 (by decide) _ hrun
  exact ⟨_, hrun, by decide, hd, hselect hdist "users-svc" ⟨id, .refl⟩⟩

/-- The second pass comes in after the drain: the health checker makes the instance healthy again,
and it is selected. -/
theorem drain_undone : ∃ w w', Reaches step (start usersChecker usersPool) w ∧
    w.status 0 = .draining ∧ step w (.checker (.probe (.response 200))) w' ∧
    w'.status 0 = .healthy ∧ (w'.select "users-svc" ⟨id, .refl⟩).2 = some 0 := by
  obtain ⟨w, hw, hc⟩ := Reaches.of_check next
    (fun w => w.status 0 = .draining && (next w (.checker (.probe (.response 200)))).any
      (fun w' => w'.status 0 = .healthy && (w'.select "users-svc" ⟨id, .refl⟩).2 = some 0))
    (start usersChecker usersPool)
    [.checker .wake, .checker (.probe (.response 200)), .checker .wake, .write 0 .draining]
    (by decide +kernel)
  obtain ⟨hd, hany⟩ := Bool.and_eq_true_iff.mp hc
  obtain ⟨w', hstep, hw'⟩ := (Option.any_eq_true _ _).mp hany
  obtain ⟨hh, hselect⟩ := Bool.and_eq_true_iff.mp hw'
  exact ⟨w, w', hw, of_decide_eq_true hd, hstep, of_decide_eq_true hh, of_decide_eq_true hselect⟩

end Sentinel.Draining
