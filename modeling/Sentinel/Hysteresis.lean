import Sentinel.Debounce
import Sentinel.Draining
import Sentinel.OwnChecks

namespace Sentinel.Hysteresis

open Router Selection Health Runs OwnChecks Debounce
open Draining (World Action)

def result : Control → Action → Option (Ref × Bool)
  | .probing r _, .checker (.probe p) => (verdict p).map (Prod.mk r)
  | _, _ => none

/-- The result makes `_check_instance` log `backend.became_healthy` or
`backend.became_unhealthy`. -/
def logs (st : State) (x : Ref × Bool) : Bool :=
  threshold st x.2 ≤ tally (judge st x.1 x.2) (st.fleet.get x.1).id x.2 ∧
    (st.fleet.get x.1).status ≠ outcome x.2

/-- The pool with the results of all checks and with those that were logged. -/
structure Watched where
  world : World
  checks : List (Ref × Bool)
  log : List (Ref × Bool)

def next (w : Watched) (a : Action) : Option Watched :=
  (Draining.next w.world a).map (fun world =>
    { world
      checks := w.checks ++ (result w.world.control a).toList
      log := w.log ++ (result w.world.control a).toList.filter (logs w.world.health) })

def step (w : Watched) (a : Action) (w' : Watched) : Prop := next w a = some w'

def watch (c : HealthChecker) (fleet : Fleet) : Watched :=
  ⟨Draining.start { c with consecutiveSuccesses := .empty, consecutiveFailures := .empty } fleet,
    [], []⟩

def own (r : Ref) (l : List (Ref × Bool)) : List Bool := (l.filter (·.1 = r)).map Prod.snd

def pending : Control → List Ref
  | .probing r rest => r :: rest
  | _ => []

def display (st : State) (r : Ref) : Display Bool InstanceStatus :=
  ⟨tally st (st.fleet.get r).id, (st.fleet.get r).status⟩

/-- The counters of `r` are not those of another instance. -/
def Owns (fleet : Fleet) (r : Ref) : Prop :=
  ∀ q ∈ pool fleet, (fleet.get q).id = (fleet.get r).id → q = r

theorem pending_proceed (fleet : Fleet) (refs : List Ref) :
    pending (proceed fleet refs) ⊆ refs := by
  induction refs with
  | nil => exact List.Subset.refl _
  | cons r rest ih =>
    unfold proceed
    split_ifs
    · exact List.Subset.trans ih (List.subset_cons_self r rest)
    · exact List.Subset.refl _

section

variable {w w' : Watched} {a : Action} {r q : Ref} {l : List (Ref × Bool)}

theorem own_concat_self (b : Bool) : own r (l ++ [(r, b)]) = own r l ++ [b] := by
  simp [own]

theorem own_concat_of_ne (h : q ≠ r) (b : Bool) : own r (l ++ [(q, b)]) = own r l := by
  simp [own, h]

theorem step_cases (h : step w a w') :
    (∃ q rest b, w.world.control = .probing q rest ∧
      w'.world.health = judge w.world.health q b ∧ pending w'.world.control ⊆ rest ∧
      w'.checks = w.checks ++ [(q, b)] ∧
      w'.log = w.log ++ [(q, b)].filter (logs w.world.health)) ∨
    (w'.world.health.checker = w.world.health.checker ∧
      SameConfig w.world.health.fleet w'.world.health.fleet ∧
      pending w'.world.control ⊆ pending w.world.control ++ pool w.world.health.fleet ∧
      (∀ r, (∀ status, a ≠ .write r status) →
        w'.world.health.fleet.get r = w.world.health.fleet.get r) ∧
      w'.checks = w.checks ∧ w'.log = w.log) := by
  obtain ⟨world, hnext, rfl⟩ := Option.map_eq_some_iff.mp h
  cases a with
  | checker signal =>
    obtain ⟨⟨st, c⟩, hresume, rfl⟩ := Option.map_eq_some_iff.mp hnext
    obtain ⟨q, rest, p, b, ⟨hc, rfl, hp⟩, rfl, rfl⟩ | ⟨q, rest, p, ⟨hc, rfl, hp⟩, rfl, rfl⟩ |
      ⟨⟨hc, rfl⟩, rfl, rfl⟩ | ⟨⟨hc, rfl⟩, rfl, rfl⟩ := resume_cases hresume
    · exact .inl ⟨q, rest, b, hc, rfl, pending_proceed _ rest, by simp [result, hc, hp],
        by simp [result, hc, hp]⟩
    · refine .inr ⟨rfl, .refl _, ?_, fun _ _ => rfl, by simp [result, hc, hp],
        by simp [result, hc, hp]⟩
      split_ifs <;> exact List.nil_subset _
    · refine .inr ⟨rfl, .refl _, ?_, fun _ _ => rfl, by simp [result, hc], by simp [result, hc]⟩
      exact List.Subset.trans (pending_proceed _ _) (List.subset_append_right _ _)
    · exact .inr ⟨rfl, .refl _, List.nil_subset _, fun _ _ => rfl, by simp [result, hc],
        by simp [result, hc]⟩
  | write q status =>
    cases hnext
    refine .inr ⟨rfl, writeStatus_sameConfig _ q status, List.subset_append_left _ _,
      fun r hr => ?_, by simp [result], by simp [result]⟩
    have hne : r ≠ q := by
      rintro rfl
      exact hr status rfl
    exact Function.update_of_ne hne _ _
  | select s shuffle =>
    cases hnext
    exact .inr ⟨rfl, .refl _, List.subset_append_left _ _, fun _ _ => rfl, by simp [result],
      by simp [result]⟩

theorem display_judge_self (st : State) (r : Ref) (b : Bool) :
    display (judge st r b) r = observe (threshold st) outcome (display st r) b := by
  unfold display observe
  rw [(judge_sameConfig st b r).id_eq r, status_judge_self]
  congr 1
  funext b'
  rw [tally_judge, if_pos rfl]

theorem display_judge_of_ne (st : State) (hne : q ≠ r)
    (hid : (st.fleet.get q).id ≠ (st.fleet.get r).id) (b : Bool) :
    display (judge st q b) r = display st r := by
  unfold display
  rw [judge_get_of_ne st b hne.symm]
  congr 1
  funext b'
  rw [tally_judge, if_neg hid.symm]

theorem logs_iff (st : State) (r : Ref) (b : Bool) :
    logs st (r, b) ↔ Switches (threshold st) outcome (display st r) b := by
  simp [logs, Switches, display, tally_judge]

/-- The instance and its log are those of a display that reads the instance's own checks. -/
structure Follows (st₀ : State) (r : Ref) (w : Watched) : Prop where
  config : SameConfig st₀.fleet w.world.health.fleet
  threshold : threshold w.world.health = threshold st₀
  pending : ∀ q ∈ pending w.world.control, q ∈ pool st₀.fleet
  display : display w.world.health r =
    reads (OwnChecks.threshold st₀) outcome (display st₀ r) (own r w.checks)
  log : own r w.log =
    switches (OwnChecks.threshold st₀) outcome (Hysteresis.display st₀ r) (own r w.checks)

theorem Follows.step {st₀ : State} (hown : Owns st₀.fleet r) (hi : Follows st₀ r w)
    (ha : ∀ status, a ≠ .write r status) (h : step w a w') : Follows st₀ r w' := by
  obtain ⟨q, rest, b, hc, hhealth, hpending, hchecks, hlog⟩ |
    ⟨hchecker, hconfig, hpending, hget, hchecks, hlog⟩ := step_cases h
  · have hmem : ∀ q' ∈ q :: rest, q' ∈ pool st₀.fleet := by
      have := hi.pending
      rwa [hc] at this
    have hconfig : SameConfig st₀.fleet w'.world.health.fleet := by
      rw [hhealth]
      exact hi.config.trans (judge_sameConfig _ b q)
    have hthreshold : OwnChecks.threshold w'.world.health = OwnChecks.threshold st₀ := by
      rw [hhealth, threshold_judge, hi.threshold]
    refine ⟨hconfig, hthreshold, fun q' hq' => hmem q' (.tail _ (hpending hq')), ?_, ?_⟩
    · rw [hhealth, hchecks]
      by_cases hqr : q = r
      · subst hqr
        rw [own_concat_self, reads_concat, ← hi.display, display_judge_self, hi.threshold]
      · rw [own_concat_of_ne hqr, ← hi.display]
        apply display_judge_of_ne _ hqr
        rw [hi.config.id_eq, hi.config.id_eq]
        exact fun he => hqr (hown q (hmem q List.mem_cons_self) he)
    · rw [hlog, hchecks]
      by_cases hqr : q = r
      · subst hqr
        rw [own_concat_self, switches_concat, ← hi.display, ← hi.log, ← hi.threshold]
        by_cases hl : logs w.world.health (q, b)
        · rw [List.filter_cons_of_pos hl, List.filter_nil, own_concat_self,
            if_pos ((logs_iff _ _ _).mp hl)]
        · rw [List.filter_cons_of_neg hl, List.filter_nil, List.append_nil,
            if_neg (mt (logs_iff _ _ _).mpr hl), List.append_nil]
      · rw [own_concat_of_ne hqr, ← hi.log]
        cases hl : logs w.world.health (q, b) with
        | true => rw [List.filter_cons_of_pos hl, List.filter_nil, own_concat_of_ne hqr]
        | false => simp [hl]
  · have hd : Hysteresis.display w'.world.health r = Hysteresis.display w.world.health r := by
      unfold Hysteresis.display
      rw [hget r ha]
      unfold tally
      rw [hchecker]
    have ht : OwnChecks.threshold w'.world.health = OwnChecks.threshold w.world.health := by
      unfold OwnChecks.threshold
      rw [hchecker]
    refine ⟨hi.config.trans hconfig, ht.trans hi.threshold, fun q' hq' => ?_, ?_, ?_⟩
    · obtain hq' | hq' := List.mem_append.mp (hpending hq')
      · exact hi.pending q' hq'
      · rwa [pool_eq_of_sameConfig hi.config] at hq'
    · rw [hd, hchecks, hi.display]
    · rw [hlog, hchecks, hi.log]

end

theorem sum_map_threshold (st : State) (bs : List Bool) : (bs.map (threshold st)).sum =
    st.checker.successThreshold * bs.count true + st.checker.failureThreshold * bs.count false := by
  induction bs with
  | nil => simp
  | cons b bs ih =>
    rw [List.map_cons, List.sum_cons, ih]
    cases b <;> simp [threshold] <;> ring

/-- Whatever the probes answer and whatever is selected or written elsewhere in between, the log of
an instance with an id of its own alternates, tells its status, and each of its lines has taken as
many checks of the instance as the threshold of the new status asks for. -/
theorem flapping_bounded (c : HealthChecker) (fleet : Fleet) (r : Ref) (hown : Owns fleet r)
    (w : Watched) (h : Reaches (Guarded (fun _ a => ∀ status, a ≠ .write r status) step)
      (watch c fleet) w) :
    c.successThreshold * (own r w.log).count true +
      c.failureThreshold * (own r w.log).count false ≤ (own r w.checks).length ∧
    (own r w.log).IsChain (· ≠ ·) ∧
    w.world.status r = ((own r w.log).getLast?.map outcome).getD (fleet.get r).status := by
  let st₀ : State := (watch c fleet).world.health
  have hi : Follows st₀ r w :=
    h.invariant (I := Follows st₀ r) (fun _ _ _ hi hstep => hi.step hown hstep.1 hstep.2)
      ⟨.refl fleet, rfl, fun _ hq => absurd hq List.not_mem_nil, rfl, rfl⟩
  have hzero : ∀ b, (display st₀ r).tally b = 0 := by
    intro b
    cases b <;> rfl
  refine ⟨?_, ?_, ?_⟩
  · have hpaid :=
      (sum_switches_add_le (threshold st₀) outcome (display st₀ r) hzero (own r w.checks)).1
    rw [← hi.log, sum_map_threshold] at hpaid
    exact hpaid
  · have hchain := isChain_switches (threshold st₀) outcome (display st₀ r) (own r w.checks)
    rw [← hi.log] at hchain
    exact hchain.imp (fun b b' hne he => hne (congrArg outcome he))
  · have hshown := shown_eq (threshold st₀) outcome (display st₀ r) (own r w.checks)
    rw [← hi.display, ← hi.log] at hshown
    exact hshown

theorem flapping_bounded_twice : ∃ w : Watched, own 0 w.log = [false, true] ∧
    2 * ((own 0 w.log).count true : ℤ) + 3 * (own 0 w.log).count false = (own 0 w.checks).length ∧
    w.world.status 0 = .healthy := by
  have hown : Owns Draining.usersPool 0 := by
    intro q hq _
    exact List.mem_singleton.mp hq
  obtain ⟨w, hw, hc⟩ := Trace.of_check next
    (fun w => own 0 w.log = [false, true] && (own 0 w.checks).length = 5)
    (watch Draining.usersChecker Draining.usersPool)
    [.checker .wake, .checker (.probe (.response 503)), .checker .wake,
      .checker (.probe (.raised (.httpx .connectError))), .checker .wake,
      .checker (.probe (.response 500)), .checker .wake, .checker (.probe (.response 200)),
      .checker .wake, .checker (.probe (.response 404))]
    (by decide +kernel)
  simp only [Bool.and_eq_true, decide_eq_true_eq] at hc
  obtain ⟨hlog, hchecks⟩ := hc
  obtain ⟨-, -, hstatus⟩ := flapping_bounded _ _ 0 hown w
    (hw.guarded (by simp)).reaches
  rw [hlog] at hstatus
  exact ⟨w, hlog, by rw [hlog, hchecks]; rfl, hstatus⟩

end Sentinel.Hysteresis
