import Sentinel.HealthRounds

namespace Sentinel.OwnChecks

open Router Selection Health HealthRounds

def resultsIn (r : Ref) (answers : Answers) (gets : List Get) : List Probe :=
  (gets.filter (fun g => g.ref = r)).map (fun g => answers.of g.ref)

def results (r : Ref) (st : State) (rounds : List Answers) : List (List Probe) :=
  List.zipWith (resultsIn r) rounds (runForever st rounds).2

def statusAfter (r : Ref) (st : State) (rounds : List Answers) : InstanceStatus :=
  ((runForever st rounds).1.fleet.get r).status

/-- Two runs that give `r` the same results leave it with the same status after every round. -/
def JudgedAlone (st : State) (r : Ref) : Prop :=
  ∀ rounds rounds', results r st rounds = results r st rounds' →
    ∀ n, statusAfter r st (rounds.take n) = statusAfter r st (rounds'.take n)

/-- A view of the state that shows the status of `r` and that changes with the results of `r`
only. -/
structure View (r : Ref) (β : Type*) where
  holds : State → Prop
  view : State → β
  observe : β → Bool → β
  status : β → InstanceStatus
  status_eq : ∀ st, holds st → (st.fleet.get r).status = status (view st)
  kept : ∀ st r' healthy, holds st → r' ∈ pool st.fleet → (st.fleet.get r').status ≠ .draining →
    holds (judge st r' healthy)
  other : ∀ st r' healthy, holds st → r' ∈ pool st.fleet → (st.fleet.get r').status ≠ .draining →
    r' ≠ r → view (judge st r' healthy) = view st
  self : ∀ st healthy, holds st → (st.fleet.get r).status ≠ .draining →
    view (judge st r healthy) = observe (view st) healthy

section

variable {r : Ref} {β : Type*} (v : View r β) {st : State}

theorem View.checkOnce (h : v.holds st) (answers : Answers) {refs : List Ref}
    (hrefs : refs ⊆ pool st.fleet) :
    v.holds (checkOnce answers st refs).1 ∧
      v.view (HealthRounds.checkOnce answers st refs).1 =
        ((resultsIn r answers (HealthRounds.checkOnce answers st refs).2).filterMap verdict).foldl
          v.observe (v.view st) := by
  induction refs generalizing st with
  | nil => exact ⟨h, rfl⟩
  | cons r' rest ih =>
    obtain ⟨hr', hrest⟩ := List.cons_subset.mp hrefs
    obtain ⟨-, he⟩ | ⟨healthy, ⟨hd, hv⟩, he⟩ | ⟨⟨hd, hv⟩, he⟩ := checkOnce_cons answers st r' rest
    · rw [he]
      exact ih h hrest
    · have hpool := pool_eq_of_sameConfig (judge_sameConfig st healthy r')
      obtain ⟨hholds, hview⟩ := ih (v.kept st r' healthy h hr' hd) (by rwa [hpool])
      rw [he]
      refine ⟨hholds, hview.trans ?_⟩
      by_cases hne : r' = r
      · subst hne
        rw [v.self st healthy h hd]
        simp [resultsIn, HealthChecker.get, hv]
      · rw [v.other st r' healthy h hr' hd hne]
        simp [resultsIn, HealthChecker.get, hne]
    -- the exception of a probe is no result that is counted
    · rw [he]
      refine ⟨h, ?_⟩
      by_cases hne : r' = r
      · subst hne
        simp [resultsIn, HealthChecker.get, hv]
      · simp [resultsIn, HealthChecker.get, hne]

theorem View.runForever (h : v.holds st) (rounds : List Answers) :
    v.holds (runForever st rounds).1 ∧
      v.view (HealthRounds.runForever st rounds).1 =
        (results r st rounds).foldl (fun x ps => (ps.filterMap verdict).foldl v.observe x)
          (v.view st) := by
  induction rounds generalizing st with
  | nil => exact ⟨h, rfl⟩
  | cons answers rounds ih =>
    obtain ⟨hholds, hview⟩ := v.checkOnce h answers (List.Subset.refl (pool st.fleet))
    obtain ⟨hholds', hview'⟩ := ih hholds
    refine ⟨hholds', hview'.trans ?_⟩
    rw [hview]
    rfl

theorem results_take (rounds : List Answers) (n : ℕ) :
    results r st (rounds.take n) = (results r st rounds).take n := by
  induction rounds generalizing st n with
  | nil => simp [results]
  | cons answers rounds ih =>
    cases n with
    | zero => rfl
    | succ n =>
      let next := (HealthRounds.checkOnce answers st (pool st.fleet)).1
      have hrest : results r next (rounds.take n) = (results r next rounds).take n := ih n
      simp only [results, HealthRounds.runForever, List.take_succ_cons, List.zipWith_cons_cons,
        List.cons.injEq, true_and] at hrest ⊢
      exact hrest

theorem View.judgedAlone (h : v.holds st) : JudgedAlone st r := by
  intro rounds rounds' hresults n
  have htake : results r st (rounds.take n) = results r st (rounds'.take n) := by
    rw [results_take, results_take, hresults]
  obtain ⟨hholds, hview⟩ := v.runForever h (rounds.take n)
  obtain ⟨hholds', hview'⟩ := v.runForever h (rounds'.take n)
  rw [statusAfter, statusAfter, v.status_eq _ hholds, v.status_eq _ hholds', hview, hview', htake]

end

def tally (st : State) (id : String) (healthy : Bool) : ℕ :=
  if healthy then st.checker.successes id else st.checker.failures id

def threshold (st : State) (healthy : Bool) : ℤ :=
  if healthy then st.checker.successThreshold else st.checker.failureThreshold

def outcome (healthy : Bool) : InstanceStatus := if healthy then .healthy else .unhealthy

section

variable (st : State) (r : Ref) (healthy : Bool)

theorem tally_judge (id : String) (b : Bool) : tally (judge st r healthy) id b =
    if id = (st.fleet.get r).id then (if b = healthy then tally st id b + 1 else 0)
    else tally st id b := by
  unfold tally
  rw [judge_checker, HealthChecker.count_successes, HealthChecker.count_failures]
  by_cases hid : id = (st.fleet.get r).id
  · cases healthy <;> cases b <;> simp [hid]
  · simp [hid]

theorem threshold_judge : threshold (judge st r healthy) = threshold st := by
  funext b
  unfold threshold
  rw [judge_checker, HealthChecker.count_successThreshold, HealthChecker.count_failureThreshold]

theorem status_judge_self : ((judge st r healthy).fleet.get r).status =
    if threshold st healthy ≤ tally st (st.fleet.get r).id healthy + 1 then outcome healthy
    else (st.fleet.get r).status := by
  rw [judge_status, judge_successes, judge_failures]
  cases healthy <;> simp [threshold, tally, outcome]

end

structure Framed (st₀ st : State) : Prop where
  config : SameConfig st₀.fleet st.fleet
  live : live st.fleet = live st₀.fleet
  threshold : threshold st = threshold st₀

theorem Framed.refl (st : State) : Framed st st := ⟨.refl _, rfl, rfl⟩

theorem Framed.judge {st₀ st : State} (h : Framed st₀ st) {r : Ref} (healthy : Bool)
    (hd : (st.fleet.get r).status ≠ .draining) : Framed st₀ (judge st r healthy) := by
  refine ⟨h.config.trans (judge_sameConfig st healthy r), ?_, ?_⟩
  · rw [live_judge healthy hd, h.live]
  · rw [threshold_judge, h.threshold]

theorem Framed.draining_iff {st₀ st : State} (h : Framed st₀ st) (r : Ref) :
    (st.fleet.get r).status = .draining ↔ (st₀.fleet.get r).status = .draining := by
  have hlive := congrFun h.live r
  simp only [HealthRounds.live, decide_eq_decide, not_iff_not] at hlive
  exact hlive

/-- The instance is draining, or no other instance that is checked has its id, or no result has to
be repeated. -/
def Unshared (st : State) (r : Ref) : Prop :=
  (st.fleet.get r).status = .draining ∨
  (∀ r' ∈ pool st.fleet, (st.fleet.get r').status ≠ .draining →
    (st.fleet.get r').id = (st.fleet.get r).id → r' = r) ∨
  ∀ healthy, threshold st healthy ≤ 1

def drainingView (r : Ref) : View r Unit where
  holds st := (st.fleet.get r).status = .draining
  view _ := ()
  observe _ _ := ()
  status _ := .draining
  status_eq _ h := h
  kept st r' healthy h _ hd := by
    have hne : r ≠ r' := by
      rintro rfl
      exact hd h
    rw [judge_get_of_ne st healthy hne]
    exact h
  other _ _ _ _ _ _ _ := rfl
  self _ _ h hd := absurd h hd

def lastView (r : Ref) : View r InstanceStatus where
  holds st := ∀ healthy, threshold st healthy ≤ 1
  view st := (st.fleet.get r).status
  observe _ := outcome
  status := id
  status_eq _ _ := rfl
  kept st r' healthy h _ _ := by rwa [threshold_judge]
  other st r' healthy _ _ _ hne := by rw [judge_get_of_ne st healthy (Ne.symm hne)]
  self st healthy h _ := by
    have hle := h healthy
    rw [status_judge_self, if_pos (by omega)]

def ownView (st₀ : State) (r : Ref) (hown : ∀ r' ∈ pool st₀.fleet,
    (st₀.fleet.get r').status ≠ .draining → (st₀.fleet.get r').id = (st₀.fleet.get r).id →
      r' = r) : View r ((Bool → ℕ) × InstanceStatus) where
  holds := Framed st₀
  view st := (tally st (st₀.fleet.get r).id, (st.fleet.get r).status)
  observe x healthy :=
    (fun b => if b = healthy then x.1 b + 1 else 0,
      if threshold st₀ healthy ≤ x.1 healthy + 1 then outcome healthy else x.2)
  status := Prod.snd
  status_eq _ _ := rfl
  kept _ _ healthy h _ hd := h.judge healthy hd
  other st r' healthy h hr' hd hne := by
    have hid : (st₀.fleet.get r).id ≠ (st.fleet.get r').id := by
      rw [h.config.id_eq]
      intro he
      rw [pool_eq_of_sameConfig h.config] at hr'
      exact hne (hown r' hr' (mt (h.draining_iff r').mpr hd) he.symm)
    refine Prod.ext ?_ ?_
    · funext b
      simp only [tally_judge, if_neg hid]
    · simp only [judge_get_of_ne st healthy (Ne.symm hne)]
  self st healthy h _ := by
    have hid : (st₀.fleet.get r).id = (st.fleet.get r).id := (h.config.id_eq r).symm
    refine Prod.ext ?_ ?_
    · funext b
      simp only [tally_judge, if_pos hid]
    · simp only [status_judge_self, h.threshold, hid]

theorem judgedAlone_of_unshared {st : State} {r : Ref} (h : Unshared st r) : JudgedAlone st r := by
  obtain hdraining | hown | hlast := h
  · exact (drainingView r).judgedAlone hdraining
  · exact (ownView st r hown).judgedAlone (.refl st)
  · exact (lastView r).judgedAlone hlast

end Sentinel.OwnChecks
