import Sentinel.Health

namespace Sentinel.HealthRounds

open Router Selection Health

def reached {α : Type*} (stops : α → Bool) : List α → List α
  | [] => []
  | x :: l => if stops x then [x] else x :: reached stops l

section

variable {α : Type*} {stops : α → Bool}

theorem reached_initial (l : List α) : reached stops l <+: l := by
  induction l with
  | nil => exact List.prefix_refl _
  | cons x l ih =>
    unfold reached
    split_ifs
    · exact ⟨l, rfl⟩
    · exact List.cons_prefix_cons.mpr ⟨rfl, ih⟩

theorem reached_eq_iff (l : List α) : reached stops l = l ↔ ∀ x ∈ l.dropLast, stops x = false := by
  induction l with
  | nil => simp [reached]
  | cons x l ih =>
    cases l with
    | nil => simp [reached]
    | cons y l =>
      rw [List.dropLast_cons_cons, List.forall_mem_cons, ← ih, reached]
      cases hx : stops x <;> simp

end

structure Answers where
  of : Ref → Probe
  uncancelled : ∀ r, of r ≠ .cancelled

/-- `check_once` from some point of its loops on: an exception outside `httpx.HTTPError` ends it. -/
def checkOnce (answers : Answers) (st : State) : List Ref → State × List Get
  | [] => (st, [])
  | r :: rest =>
    if (st.fleet.get r).status = .draining then checkOnce answers st rest
    else
      let get := st.checker.get st.fleet r
      match verdict (answers.of r) with
      | some healthy =>
        let round := checkOnce answers (judge st r healthy) rest
        (round.1, get :: round.2)
      | none => (st, [get])

/-- The iterations of `run_forever`, with the probes of each. -/
def runForever (st : State) : List Answers → State × List (List Get)
  | [] => (st, [])
  | answers :: rounds =>
    let round := checkOnce answers st (pool st.fleet)
    let later := runForever round.1 rounds
    (later.1, round.2 :: later.2)

def escapes (answers : Answers) (r : Ref) : Bool := (verdict (answers.of r)).isNone

def live (fleet : Fleet) (r : Ref) : Bool := (fleet.get r).status ≠ .draining

/-- Every instance that is not draining is probed once for each time that the pool lists it, and
no other instance is probed. -/
def ProbesEach (fleet : Fleet) (gets : List Get) : Prop :=
  ∀ r, (gets.map Get.ref).count r = if live fleet r then (pool fleet).count r else 0

/-- No probe raises outside `httpx.HTTPError`, except for the last of the pool's instances that are
not draining. -/
def Harmless (fleet : Fleet) (answers : Answers) : Prop :=
  ∀ r ∈ ((pool fleet).filter (live fleet)).dropLast, escapes answers r = false

section

variable {answers : Answers} {st : State} {r : Ref}

theorem checkOnce_cons (answers : Answers) (st : State) (r : Ref) (rest : List Ref) :
    ((st.fleet.get r).status = .draining ∧
      checkOnce answers st (r :: rest) = checkOnce answers st rest) ∨
    (∃ healthy, ((st.fleet.get r).status ≠ .draining ∧ verdict (answers.of r) = some healthy) ∧
      checkOnce answers st (r :: rest) = ((checkOnce answers (judge st r healthy) rest).1,
        st.checker.get st.fleet r :: (checkOnce answers (judge st r healthy) rest).2)) ∨
    (((st.fleet.get r).status ≠ .draining ∧ verdict (answers.of r) = none) ∧
      checkOnce answers st (r :: rest) = (st, [st.checker.get st.fleet r])) := by
  by_cases hd : (st.fleet.get r).status = .draining
  · exact .inl ⟨hd, by simp only [checkOnce, hd, ↓reduceIte]⟩
  · cases hv : verdict (answers.of r) with
    | some healthy =>
      exact .inr (.inl ⟨healthy, ⟨hd, rfl⟩, by simp only [checkOnce, hd, ↓reduceIte, hv]⟩)
    | none => exact .inr (.inr ⟨⟨hd, rfl⟩, by simp only [checkOnce, hd, ↓reduceIte, hv]⟩)

theorem resume_checkOnce (answers : Answers) (st : State) (refs : List Ref) :
    ((checkOnce answers st refs).2.map (fun g => Signal.probe (answers.of g.ref))).foldlM
      (fun w signal => resume w.1 w.2 signal) (st, proceed st.fleet refs) =
      some ((checkOnce answers st refs).1, Control.sleeping) := by
  induction refs generalizing st with
  | nil => rfl
  | cons r rest ih =>
    obtain ⟨hd, h⟩ | ⟨healthy, ⟨hd, hv⟩, h⟩ | ⟨⟨hd, hv⟩, h⟩ := checkOnce_cons answers st r rest
    · rw [h, proceed, if_pos hd]
      exact ih st
    · rw [h, proceed, if_neg hd, List.map_cons, List.foldlM_cons]
      simp only [HealthChecker.get, resume, hv, Option.bind_eq_bind, Option.bind_some]
      exact ih (judge st r healthy)
    · rw [h, proceed, if_neg hd]
      simp [HealthChecker.get, resume, hv, answers.uncancelled r]

theorem checkOnce_invariant {I : State → Prop} (refs : List Ref)
    (hjudge : ∀ st, ∀ r ∈ refs, ∀ healthy, (st.fleet.get r).status ≠ .draining →
      verdict (answers.of r) = some healthy → I st → I (judge st r healthy))
    (hst : I st) : I (checkOnce answers st refs).1 := by
  induction refs generalizing st with
  | nil => exact hst
  | cons r rest ih =>
    have hrest : ∀ st, I st → I (checkOnce answers st rest).1 :=
      fun st => ih (fun st r hr => hjudge st r (List.mem_cons_of_mem _ hr))
    obtain ⟨-, h⟩ | ⟨healthy, ⟨hd, hv⟩, h⟩ | ⟨-, h⟩ := checkOnce_cons answers st r rest
    · rw [h]
      exact hrest st hst
    · rw [h]
      exact hrest _ (hjudge st r List.mem_cons_self healthy hd hv hst)
    · rw [h]
      exact hst

theorem live_judge (healthy : Bool) (hr : (st.fleet.get r).status ≠ .draining) :
    live (judge st r healthy).fleet = live st.fleet := by
  funext r'
  unfold live
  by_cases h : r' = r
  · subst h
    have hjudge : ((judge st r' healthy).fleet.get r').status ≠ .draining := by
      rw [judge_status]
      split_ifs <;> simp [hr]
    simp [hr, hjudge]
  · rw [judge_get_of_ne st healthy h]

theorem checkOnce_frame (answers : Answers) (st : State) (refs : List Ref) :
    SameConfig st.fleet (checkOnce answers st refs).1.fleet ∧
      live (checkOnce answers st refs).1.fleet = live st.fleet := by
  refine checkOnce_invariant
    (I := fun st' => SameConfig st.fleet st'.fleet ∧ live st'.fleet = live st.fleet) refs
    (fun st' r _ healthy hd _ hst => ?_) ⟨.refl _, rfl⟩
  exact ⟨hst.1.trans (judge_sameConfig st' healthy r), (live_judge healthy hd).trans hst.2⟩

theorem checkOnce_refs (refs : List Ref) : (checkOnce answers st refs).2.map Get.ref =
    reached (escapes answers) (refs.filter (live st.fleet)) := by
  induction refs generalizing st with
  | nil => rfl
  | cons r rest ih =>
    obtain ⟨hd, h⟩ | ⟨healthy, ⟨hd, hv⟩, h⟩ | ⟨⟨hd, hv⟩, h⟩ := checkOnce_cons answers st r rest
    · rw [h, ih, List.filter_cons_of_neg (by simp [live, hd])]
    · rw [h, List.filter_cons_of_pos (by simp [live, hd]), reached, escapes, hv, List.map_cons,
        ih, live_judge healthy hd]
      rfl
    · rw [h, List.filter_cons_of_pos (by simp [live, hd]), reached, escapes, hv]
      rfl

theorem harmless_iff : Harmless st.fleet answers ↔ reached (escapes answers)
    ((pool st.fleet).filter (live st.fleet)) = (pool st.fleet).filter (live st.fleet) :=
  (reached_eq_iff _).symm

theorem probesEach_iff : ProbesEach st.fleet (checkOnce answers st (pool st.fleet)).2 ↔
    Harmless st.fleet answers := by
  have hcount : ∀ r, ((pool st.fleet).filter (live st.fleet)).count r =
      if live st.fleet r then (pool st.fleet).count r else 0 := by
    intro r
    split_ifs with hr
    · exact List.count_filter hr
    · exact List.count_eq_zero.mpr (fun hm => hr (List.mem_filter.mp hm).2)
  unfold ProbesEach
  simp only [checkOnce_refs, ← hcount, ← List.perm_iff_count]
  rw [harmless_iff]
  constructor
  · exact fun hperm => (reached_initial _).eq_of_length hperm.length_eq
  · intro heq
    rw [heq]

end

def Alone (fleet : Fleet) (r : Ref) : Prop :=
  ∀ r' ∈ pool fleet, (fleet.get r').id = (fleet.get r).id → r' = r

/-- The instance has passed `k` times in a row, and is healthy if that is enough. -/
structure Passed (st₀ : State) (r : Ref) (k : ℕ) (st : State) : Prop where
  config : SameConfig st₀.fleet st.fleet
  threshold : st.checker.successThreshold = st₀.checker.successThreshold
  passes : k ≤ st.checker.successes (st.fleet.get r).id
  healthy : 1 ≤ k → st₀.checker.successThreshold ≤ k → (st.fleet.get r).status = .healthy

section

variable {st₀ st : State} {r : Ref} {k : ℕ} {answers : Answers}

theorem Passed.judge_other (h : Passed st₀ r k st) (halone : Alone st₀.fleet r) {r' : Ref}
    (hr' : r' ∈ pool st₀.fleet) (hne : r ≠ r') (healthy : Bool) :
    Passed st₀ r k (judge st r' healthy) := by
  have hid : (st.fleet.get r).id ≠ (st.fleet.get r').id := by
    rw [h.config.id_eq, h.config.id_eq]
    exact fun he => hne (halone r' hr' he.symm).symm
  refine ⟨h.config.trans (judge_sameConfig st healthy r'), ?_, ?_, ?_⟩
  · rw [judge_checker, HealthChecker.count_successThreshold, h.threshold]
  · rw [judge_get_of_ne st healthy hne, judge_checker, HealthChecker.count_successes, if_neg hid]
    exact h.passes
  · rw [judge_get_of_ne st healthy hne]
    exact h.healthy

theorem Passed.judge_self (h : Passed st₀ r k st) : Passed st₀ r (k + 1) (judge st r true) := by
  have hconfig := judge_sameConfig st true r
  have hid : ((judge st r true).fleet.get r).id = (st.fleet.get r).id := hconfig.id_eq r
  have hpasses : k + 1 ≤ (judge st r true).checker.successes (st.fleet.get r).id := by
    rw [judge_successes]
    exact Nat.succ_le_succ h.passes
  refine ⟨h.config.trans hconfig, ?_, by rwa [hid], fun _ hk => ?_⟩
  · rw [judge_checker, HealthChecker.count_successThreshold, h.threshold]
  · rw [judge_status, if_pos rfl, if_pos]
    rw [h.threshold]
    omega

theorem Passed.weaken (h : Passed st₀ r (k + 1) st) : Passed st₀ r k st :=
  ⟨h.config, h.threshold, by have := h.passes; omega,
    fun _ hk => h.healthy (by omega) (by push_cast; omega)⟩

theorem Passed.checkOnce (h : Passed st₀ r k st) (halone : Alone st₀.fleet r)
    (hpass : verdict (answers.of r) = some true) {refs : List Ref} (hrefs : refs ⊆ pool st₀.fleet) :
    Passed st₀ r k (checkOnce answers st refs).1 := by
  refine checkOnce_invariant refs (fun st r' hr' healthy _ hv h => ?_) h
  by_cases hne : r = r'
  · subst hne
    rw [hpass] at hv
    cases hv
    exact h.judge_self.weaken
  · exact h.judge_other halone (hrefs hr') hne healthy

theorem Passed.checkOnce_of_mem (h : Passed st₀ r k st) (halone : Alone st₀.fleet r)
    (hpass : verdict (answers.of r) = some true) (hlive : live st.fleet r = true)
    {refs : List Ref} (hrefs : refs ⊆ pool st₀.fleet) (hr : r ∈ refs)
    (hreached : reached (escapes answers) (refs.filter (live st.fleet)) =
      refs.filter (live st.fleet)) :
    Passed st₀ r (k + 1) (HealthRounds.checkOnce answers st refs).1 := by
  induction refs generalizing st with
  | nil => simp at hr
  | cons r' rest ih =>
    obtain ⟨hr', hrest⟩ := List.cons_subset.mp hrefs
    have hmem : r ≠ r' → r ∈ rest := fun hne => (List.mem_cons.mp hr).resolve_left hne
    obtain ⟨hd, he⟩ | ⟨healthy, ⟨hd, hv⟩, he⟩ | ⟨⟨hd, hv⟩, he⟩ := checkOnce_cons answers st r' rest
    · have hne : r ≠ r' := by
        rintro rfl
        simp [live, hd] at hlive
      rw [List.filter_cons_of_neg (by simp [live, hd])] at hreached
      rw [he]
      exact ih h hlive hrest (hmem hne) hreached
    · rw [he]
      by_cases hne : r = r'
      · subst hne
        rw [hpass] at hv
        cases hv
        exact h.judge_self.checkOnce halone hpass hrest
      · rw [List.filter_cons_of_pos (by simp [live, hd]), reached, escapes, hv] at hreached
        rw [← live_judge healthy hd] at hlive hreached
        exact ih (h.judge_other halone hr' hne healthy) hlive hrest (hmem hne)
          (List.cons.inj hreached).2
    · have hne : r ≠ r' := by
        rintro rfl
        rw [hpass] at hv
        cases hv
      -- nothing is left of the pool after the probe that ends the round
      rw [List.filter_cons_of_pos (by simp [live, hd]), reached, escapes, hv] at hreached
      have hin : r ∈ rest.filter (live st.fleet) := List.mem_filter.mpr ⟨hmem hne, hlive⟩
      rw [← (List.cons.inj hreached).2] at hin
      exact absurd hin List.not_mem_nil

end

section

variable {st : State} {rounds : List Answers}

theorem harmless_checkOnce (a answers : Answers) :
    Harmless (checkOnce a st (pool st.fleet)).1.fleet answers ↔ Harmless st.fleet answers := by
  obtain ⟨hconfig, hlive⟩ := checkOnce_frame a st (pool st.fleet)
  unfold Harmless
  rw [hlive, pool_eq_of_sameConfig hconfig]

theorem probesEach_checkOnce (a : Answers) (gets : List Get) :
    ProbesEach (checkOnce a st (pool st.fleet)).1.fleet gets ↔ ProbesEach st.fleet gets := by
  obtain ⟨hconfig, hlive⟩ := checkOnce_frame a st (pool st.fleet)
  unfold ProbesEach
  rw [hlive, pool_eq_of_sameConfig hconfig]

theorem runForever_probesEach_iff : (∀ gets ∈ (runForever st rounds).2, ProbesEach st.fleet gets) ↔
    ∀ answers ∈ rounds, Harmless st.fleet answers := by
  induction rounds generalizing st with
  | nil => simp [runForever]
  | cons a rounds ih =>
    simp only [runForever, List.forall_mem_cons, probesEach_iff]
    apply and_congr_right'
    rw [← forall₂_congr (fun gets _ => probesEach_checkOnce a gets), ih]
    exact forall₂_congr (fun answers _ => harmless_checkOnce a answers)

theorem Passed.runForever {st₀ : State} {r : Ref} {k : ℕ} (h : Passed st₀ r k st)
    (halone : Alone st₀.fleet r) (hr : r ∈ pool st₀.fleet) (hlive : live st.fleet r = true)
    (hharmless : ∀ answers ∈ rounds, Harmless st.fleet answers)
    (hpass : ∀ answers ∈ rounds, verdict (answers.of r) = some true) :
    Passed st₀ r (k + rounds.length) (HealthRounds.runForever st rounds).1 := by
  induction rounds generalizing st k with
  | nil => exact h
  | cons a rounds ih =>
    rw [List.forall_mem_cons] at hharmless hpass
    have hpool : pool st.fleet = pool st₀.fleet := pool_eq_of_sameConfig h.config
    have hround : Passed st₀ r (k + 1) (HealthRounds.checkOnce a st (pool st.fleet)).1 :=
      h.checkOnce_of_mem halone hpass.1 hlive (by simp [hpool]) (by rwa [hpool])
        (harmless_iff.mp hharmless.1)
    obtain ⟨-, hframe⟩ := checkOnce_frame a st (pool st.fleet)
    have hrest := ih hround (by rwa [hframe])
      (fun answers hin => (harmless_checkOnce a answers).mpr (hharmless.2 answers hin)) hpass.2
    rw [List.length_cons, ← Nat.add_assoc, Nat.add_right_comm]
    exact hrest

end

/-- Every iteration probes each instance exactly when no probe but the last one raises outside
`httpx.HTTPError`; and then an instance that keeps passing becomes healthy, whatever the others
do. -/
theorem rounds_isolate_iff (st : State) (rounds : List Answers) :
    ((∀ gets ∈ (runForever st rounds).2, ProbesEach st.fleet gets) ↔
      ∀ answers ∈ rounds, Harmless st.fleet answers) ∧
    ((∀ answers ∈ rounds, Harmless st.fleet answers) →
      ∀ r ∈ pool st.fleet, live st.fleet r = true → Alone st.fleet r → rounds ≠ [] →
        st.checker.successThreshold ≤ rounds.length →
        (∀ answers ∈ rounds, verdict (answers.of r) = some true) →
        ((runForever st rounds).1.fleet.get r).status = .healthy) := by
  refine ⟨runForever_probesEach_iff, ?_⟩
  intro hharmless r hr hlive halone hne hthreshold hpass
  have hstart : Passed st r 0 st := ⟨.refl _, rfl, Nat.zero_le _, fun h => absurd h (by omega)⟩
  have hend := hstart.runForever halone hr hlive hharmless hpass
  rw [Nat.zero_add] at hend
  exact hend.healthy (List.length_pos_iff.mpr hne) hthreshold

def twoInstances (host : String) : State :=
  { checker := { timeoutS := 1, failureThreshold := 3, successThreshold := 2 }
    fleet :=
      { get := fun r =>
          if r = 0 then { id := "u1", host, port := 8080 }
          else { id := "u2", host := "users-two", port := 8080 }
        byService := Dict.empty.set "users-svc" [0, 1] } }

def usersState : State := twoInstances "users-one"

/-- No host name has a control character in it. -/
def malformedState : State := twoInstances "users\x7fone"

def refused : Answers :=
  ⟨fun r => if r = 0 then .raised (.httpx .connectError) else .response 200,
    fun r => by split_ifs <;> simp⟩

def malformed : Answers :=
  ⟨fun r => if r = 0 then .raised (.httpx .invalidURL) else .response 200,
    fun r => by split_ifs <;> simp⟩

theorem rounds_isolate_refused :
    (∀ gets ∈ (runForever usersState [refused, refused]).2, ProbesEach usersState.fleet gets) ∧
      ((runForever usersState [refused, refused]).1.fleet.get 1).status = .healthy := by
  have hharmless : ∀ answers ∈ [refused, refused], Harmless usersState.fleet answers := by
    intro answers hin
    obtain rfl : answers = refused := by simpa using hin
    unfold Harmless
    decide
  have h := rounds_isolate_iff usersState [refused, refused]
  exact ⟨h.1.mpr hharmless, h.2 hharmless 1 (by decide) (by decide) (by unfold Alone; decide)
    (by simp) (by decide) (by simp [refused, verdict])⟩

/-- `InvalidURL` for the first instance ends every round before the second, which stays unknown. -/
theorem malformed_host_ends_round :
    ¬(∀ gets ∈ (runForever malformedState [malformed, malformed]).2,
      ProbesEach malformedState.fleet gets) ∧
    ((runForever malformedState [malformed, malformed]).1.fleet.get 1).status = .unknown := by
  refine ⟨fun h => ?_, by decide⟩
  have hone := h _ List.mem_cons_self 1
  revert hone
  decide

end Sentinel.HealthRounds
