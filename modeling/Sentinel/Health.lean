import Sentinel.Dispatch
import Sentinel.Selection

namespace Sentinel.Health

open Router Dispatch Selection

structure HealthChecker where
  timeoutS : ℚ
  failureThreshold : ℤ
  successThreshold : ℤ
  healthPath : String := "/health"
  consecutiveSuccesses : Dict String ℕ := .empty
  consecutiveFailures : Dict String ℕ := .empty

inductive ProbeError
  | httpx (e : HttpxError)
  | other (name : String)
  deriving DecidableEq

def ProbeError.isHttpError : ProbeError → Bool
  | .httpx e => e ≠ .invalidURL
  | .other _ => false

inductive Probe
  | response (statusCode : ℕ)
  | raised (e : ProbeError)
  | cancelled
  deriving DecidableEq

/-- `healthy`, unless the probe leaves `_check_instance` with its exception. -/
def verdict : Probe → Option Bool
  | .response statusCode => some (statusCode < 500)
  | .raised e => if e.isHttpError then some false else none
  | .cancelled => none

structure Get where
  ref : Ref
  url : String
  timeoutS : ℚ

structure State where
  checker : HealthChecker
  fleet : Fleet

/-- The pool in the order of the two loops of `check_once`. -/
def pool (fleet : Fleet) : List Ref := fleet.byService.items.flatMap Prod.snd

namespace HealthChecker

def successes (c : HealthChecker) (id : String) : ℕ := (c.consecutiveSuccesses.get? id).getD 0

def failures (c : HealthChecker) (id : String) : ℕ := (c.consecutiveFailures.get? id).getD 0

def get (c : HealthChecker) (fleet : Fleet) (r : Ref) : Get :=
  ⟨r, (fleet.get r).url ++ c.healthPath, c.timeoutS⟩

def count (c : HealthChecker) (id : String) (healthy : Bool) : HealthChecker :=
  if healthy then
    { c with
      consecutiveSuccesses := c.consecutiveSuccesses.set id (c.successes id + 1)
      consecutiveFailures := c.consecutiveFailures.set id 0 }
  else
    { c with
      consecutiveFailures := c.consecutiveFailures.set id (c.failures id + 1)
      consecutiveSuccesses := c.consecutiveSuccesses.set id 0 }

def rate (c : HealthChecker) (i : BackendInstance) (healthy : Bool) : BackendInstance :=
  if healthy then
    if c.successThreshold ≤ c.successes i.id then { i with status := .healthy } else i
  else
    if c.failureThreshold ≤ c.failures i.id then
      { i with failureCount := i.failureCount + 1, status := .unhealthy }
    else { i with failureCount := i.failureCount + 1 }

end HealthChecker

/-- `_check_instance` from where `healthy` is known. -/
def judge (st : State) (r : Ref) (healthy : Bool) : State :=
  let checker := st.checker.count (st.fleet.get r).id healthy
  ⟨checker, setInstance st.fleet r (checker.rate (st.fleet.get r) healthy)⟩

/-- Where `run_forever` stands: awaiting a probe, with the instances that the round has still to
come to, awaiting the next round, or left. -/
inductive Control
  | probing (r : Ref) (rest : List Ref)
  | sleeping
  | left

/-- The loops of `check_once` up to the next `await`. -/
def proceed (fleet : Fleet) : List Ref → Control
  | [] => .sleeping
  | r :: rest => if (fleet.get r).status = .draining then proceed fleet rest else .probing r rest

inductive Signal
  | probe (p : Probe)
  | wake
  | cancel

def resume (st : State) : Control → Signal → Option (State × Control)
  | .probing r rest, .probe p =>
    match verdict p with
    | some healthy => some (judge st r healthy, proceed (judge st r healthy).fleet rest)
    | none => some (st, if p = .cancelled then .left else .sleeping)
  | .sleeping, .wake => some (st, proceed st.fleet (pool st.fleet))
  | .sleeping, .cancel => some (st, .left)
  | _, _ => none

namespace HealthChecker

variable (c : HealthChecker) (id id' : String) (i : BackendInstance) (healthy : Bool)

theorem count_successes : (c.count id healthy).successes id' =
    if id' = id then (if healthy then c.successes id + 1 else 0) else c.successes id' := by
  cases healthy <;> by_cases h : id' = id <;> simp [count, successes, Dict.get?_set, h]

theorem count_failures : (c.count id healthy).failures id' =
    if id' = id then (if healthy then 0 else c.failures id + 1) else c.failures id' := by
  cases healthy <;> by_cases h : id' = id <;> simp [count, failures, Dict.get?_set, h]

@[simp] theorem count_successThreshold :
    (c.count id healthy).successThreshold = c.successThreshold := by
  cases healthy <;> rfl

@[simp] theorem count_failureThreshold :
    (c.count id healthy).failureThreshold = c.failureThreshold := by
  cases healthy <;> rfl

theorem rate_sign :
    ((c.rate i healthy).id, (c.rate i healthy).weight) = (i.id, i.weight) := by
  unfold rate
  split_ifs <;> rfl

theorem rate_status : (c.rate i healthy).status =
    if healthy then (if c.successThreshold ≤ c.successes i.id then .healthy else i.status)
    else (if c.failureThreshold ≤ c.failures i.id then .unhealthy else i.status) := by
  unfold rate
  split_ifs <;> rfl

end HealthChecker

section

variable (st : State) {r r' : Ref} (healthy : Bool)

theorem judge_get_of_ne (h : r' ≠ r) :
    (judge st r healthy).fleet.get r' = st.fleet.get r' := Function.update_of_ne h _ _

theorem judge_get_self : (judge st r healthy).fleet.get r =
    (st.checker.count (st.fleet.get r).id healthy).rate (st.fleet.get r) healthy :=
  Function.update_self _ _ _

theorem judge_checker (r : Ref) :
    (judge st r healthy).checker = st.checker.count (st.fleet.get r).id healthy := rfl

theorem judge_status : ((judge st r healthy).fleet.get r).status =
    if healthy then
      (if st.checker.successThreshold ≤ (judge st r healthy).checker.successes (st.fleet.get r).id
        then .healthy else (st.fleet.get r).status)
    else
      (if st.checker.failureThreshold ≤ (judge st r healthy).checker.failures (st.fleet.get r).id
        then .unhealthy else (st.fleet.get r).status) := by
  rw [judge_get_self, HealthChecker.rate_status, judge_checker]
  simp only [HealthChecker.count_successThreshold, HealthChecker.count_failureThreshold]

theorem judge_sameConfig (r : Ref) : SameConfig st.fleet (judge st r healthy).fleet := by
  refine ⟨rfl, fun r' => ?_⟩
  unfold sign
  by_cases h : r' = r
  · subst h
    rw [judge_get_self]
    exact HealthChecker.rate_sign _ _ _
  · rw [judge_get_of_ne st healthy h]

theorem judge_successes (r : Ref) : (judge st r healthy).checker.successes (st.fleet.get r).id =
    if healthy then st.checker.successes (st.fleet.get r).id + 1 else 0 := by
  rw [judge_checker, HealthChecker.count_successes, if_pos rfl]

theorem judge_failures (r : Ref) : (judge st r healthy).checker.failures (st.fleet.get r).id =
    if healthy then 0 else st.checker.failures (st.fleet.get r).id + 1 := by
  rw [judge_checker, HealthChecker.count_failures, if_pos rfl]

end

/-- Only the end of a probe that gave a result changes anything. -/
theorem resume_cases {st st' : State} {c c' : Control} {signal : Signal}
    (h : resume st c signal = some (st', c')) :
    (∃ r rest p healthy, (c = .probing r rest ∧ signal = .probe p ∧ verdict p = some healthy) ∧
      st' = judge st r healthy ∧ c' = proceed (judge st r healthy).fleet rest) ∨
    (∃ r rest p, (c = .probing r rest ∧ signal = .probe p ∧ verdict p = none) ∧
      st' = st ∧ c' = if p = .cancelled then .left else .sleeping) ∨
    ((c = .sleeping ∧ signal = .wake) ∧ st' = st ∧ c' = proceed st.fleet (pool st.fleet)) ∨
    ((c = .sleeping ∧ signal = .cancel) ∧ st' = st ∧ c' = .left) := by
  cases c with
  | probing r rest =>
    cases signal with
    | probe p =>
      cases hp : verdict p with
      | some healthy =>
        simp only [resume, hp, Option.some.injEq, Prod.mk.injEq] at h
        exact .inl ⟨r, rest, p, healthy, ⟨rfl, rfl, hp⟩, h.1.symm, h.2.symm⟩
      | none =>
        simp only [resume, hp, Option.some.injEq, Prod.mk.injEq] at h
        exact .inr (.inl ⟨r, rest, p, ⟨rfl, rfl, hp⟩, h.1.symm, h.2.symm⟩)
    | wake | cancel => simp [resume] at h
  | sleeping =>
    cases signal with
    | probe p => simp [resume] at h
    | wake =>
      simp only [resume, Option.some.injEq, Prod.mk.injEq] at h
      exact .inr (.inr (.inl ⟨⟨rfl, rfl⟩, h.1.symm, h.2.symm⟩))
    | cancel =>
      simp only [resume, Option.some.injEq, Prod.mk.injEq] at h
      exact .inr (.inr (.inr ⟨⟨rfl, rfl⟩, h.1.symm, h.2.symm⟩))
  | left => simp [resume] at h

theorem pool_eq_of_sameConfig {fleet fleet' : Fleet} (h : SameConfig fleet fleet') :
    pool fleet' = pool fleet := by
  unfold pool
  rw [h.byService]

theorem mem_pool_of_mem_instancesOf {fleet : Fleet} {s : String} {r : Ref}
    (h : r ∈ instancesOf fleet s) : r ∈ pool fleet := by
  unfold instancesOf at h
  cases hs : fleet.byService.get? s with
  | none => simp [hs] at h
  | some refs =>
    rw [hs] at h
    exact List.mem_flatMap.mpr ⟨(s, refs), Dict.mem_items_iff.mpr hs, h⟩

end Sentinel.Health
