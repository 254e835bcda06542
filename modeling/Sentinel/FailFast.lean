import Sentinel.Dispatches

namespace Sentinel.FailFast

open Runs Text Breaker Dispatch Dispatches

def Apart (d : ℚ) (e e' : Event) : Prop :=
  ∀ t u f, e = .opened t → e' = .forward u f → t + d ≤ u

/-- A breaker that began as `b₀` and the events about its service: an opening lasts until its time
has run out, and the breaker is open only by one. -/
structure Safe (b₀ b : CircuitBreaker) (now : ℚ) (es : List Event) : Prop where
  config : b.config = b₀.config
  lasting : ∀ t, .opened t ∈ es →
    (b.state = .open ∧ b.openedAt = some t) ∨ t + b₀.config.openDurationSeconds ≤ now
  origin : b.state = .open → ∀ t, b.openedAt = some t →
    .opened t ∈ es ∨ b₀.state = .open ∧ b₀.openedAt = some t
  apart : es.Pairwise (Apart b₀.config.openDurationSeconds)

variable {b₀ b : CircuitBreaker} {now : ℚ} {es : List Event}

theorem safe_start (b : CircuitBreaker) (now : ℚ) : Safe b b now [] :=
  ⟨rfl, by simp, fun hs _ ht => .inr ⟨hs, ht⟩, .nil⟩

theorem Safe.later (h : Safe b₀ b now es) {now' : ℚ} (hle : now ≤ now') : Safe b₀ b now' es :=
  ⟨h.config, fun t ht => (h.lasting t ht).imp_right hle.trans', h.origin, h.apart⟩

theorem Safe.change (h : Safe b₀ b now es) {b' : CircuitBreaker} (hc : b'.config = b.config)
    (hs : b'.state = .open ↔ b.state = .open) (ho : b.state = .open → b'.openedAt = b.openedAt) :
    Safe b₀ b' now es := by
  refine ⟨hc.trans h.config, fun t ht => ?_, fun hs' t ht => ?_, h.apart⟩
  · obtain ⟨hopen, hat⟩ | hdone := h.lasting t ht
    · exact .inl ⟨hs.mpr hopen, (ho hopen).trans hat⟩
    · exact .inr hdone
  · exact h.origin (hs.mp hs') t ((ho (hs.mp hs')).symm.trans ht)

theorem Safe.append (h : Safe b₀ b now es) (e : Event) (ho : ∀ t, e ≠ .opened t)
    (hf : ∀ u f, e ≠ .forward u f) : Safe b₀ b now (es ++ [e]) := by
  refine ⟨h.config, fun t ht => h.lasting t ?_, fun hs t ht => ?_, ?_⟩
  · obtain ht | ht : _ ∈ es ∨ _ = e := by simpa using ht
    · exact ht
    · exact absurd ht.symm (ho t)
  · exact (h.origin hs t ht).imp_left (List.mem_append_left _)
  · rw [List.pairwise_append]
    refine ⟨h.apart, List.pairwise_singleton _ _, fun e' _ e'' he t u f _ hu => ?_⟩
    obtain rfl : e'' = e := by simpa using he
    exact absurd hu (hf u f)

theorem Safe.forward (h : Safe b₀ b now es) (hs : b.state ≠ .open) {u : ℚ} (hu : now ≤ u)
    (f : Forward) : Safe b₀ b u (es ++ [.forward u f]) := by
  have hdone : ∀ t, .opened t ∈ es → t + b₀.config.openDurationSeconds ≤ u := by
    intro t ht
    obtain ⟨hopen, -⟩ | hdone := h.lasting t ht
    · exact absurd hopen hs
    · exact hdone.trans hu
  refine ⟨h.config, fun t ht => .inr (hdone t (by simpa using ht)), fun hs' => absurd hs' hs, ?_⟩
  rw [List.pairwise_append]
  refine ⟨h.apart, List.pairwise_singleton _ _, fun e he e' he' t u' f' ht hu' => ?_⟩
  obtain rfl : e' = .forward u f := by simpa using he'
  subst ht
  cases hu'
  exact hdone t he

theorem Safe.readState (h : Safe b₀ b now es) {clock : ℚ} (hc : now ≤ clock) :
    Safe b₀ (readState clock b) clock es := by
  obtain hr | ⟨openedAt, hs, ho, hle, hr⟩ := readState_cases clock b
  · rw [hr]
    exact h.later hc
  · rw [hr]
    refine ⟨h.config, fun t ht => .inr ?_, by simp [transitionToHalfOpen], h.apart⟩
    obtain ⟨-, hat⟩ | hdone := h.lasting t ht
    · obtain rfl : openedAt = t := Option.some.inj (ho.symm.trans hat)
      rwa [h.config] at hle
    · exact hdone.trans hc

theorem Safe.beforeRequest (h : Safe b₀ b now es) {clock : ℚ} (hc : now ≤ clock) :
    Safe b₀ (beforeRequest clock b).1 clock es := by
  have hr := h.readState hc
  obtain ⟨-, hb, -⟩ | ⟨-, -, -, hb⟩ | ⟨-, -, hb⟩ := beforeRequest_cases clock b
  · rwa [hb]
  · rw [hb]
    exact hr.change rfl Iff.rfl (fun _ => rfl)
  · rwa [hb]

theorem Safe.recordSuccess (h : Safe b₀ b now es) : Safe b₀ (recordSuccess b) now es := by
  apply h.change (recordSuccess_config b)
  · by_cases hs : b.state = .halfOpen
    · obtain ⟨-, hr⟩ | ⟨-, hr, -, -⟩ := recordSuccess_halfOpen hs <;> simp [hr, hs]
    · simp [recordSuccess_of_ne_halfOpen hs, appendOutcome]
  · intro hs
    simp [recordSuccess_of_ne_halfOpen (show b.state ≠ .halfOpen by simp [hs]), appendOutcome]

theorem safe_recordFailure {sh : Shared} {serviceId : String}
    (h : Safe b₀ (sh.breakerFor serviceId) now es) {clock : ℚ} (hc : now ≤ clock) :
    Safe b₀ ((sh.recordFailure serviceId clock).1.breakerFor serviceId) clock
      (es ++ (sh.recordFailure serviceId clock).2.1) := by
  have h := h.later hc
  rw [breakerFor_recordFailure, if_pos rfl]
  simp only [Shared.recordFailure]
  generalize sh.breakerFor serviceId = b at h
  obtain ⟨hs, hb⟩ | ⟨hs, hb⟩ := recordFailure_cases clock b
  · have hsame : (Breaker.recordFailure clock b).1.state = b.state := by simp [hb, appendOutcome]
    rw [if_neg (fun hn => hn.1 (hsame ▸ hn.2))]
    apply Safe.append _ _ (by simp) (by simp)
    exact h.change (recordFailure_config clock b) (by rw [hsame])
      (fun _ => by simp [hb, appendOutcome])
  · have hopen : (Breaker.recordFailure clock b).1.state = .open := congrArg CircuitBreaker.state hb
    have hat : (Breaker.recordFailure clock b).1.openedAt = some clock :=
      congrArg CircuitBreaker.openedAt hb
    rw [if_pos ⟨hs, hopen⟩, List.append_cons]
    have happ := h.append .recordFailure (by simp) (by simp)
    refine ⟨(recordFailure_config clock b).trans h.config, fun t ht => ?_, fun _ t ht => ?_, ?_⟩
    · obtain ht | rfl : .opened t ∈ es ++ [.recordFailure] ∨ t = clock := by simpa using ht
      · obtain ⟨hopen', -⟩ | hdone := happ.lasting t ht
        · exact absurd hopen' hs
        · exact .inr hdone
      · exact .inl ⟨hopen, hat⟩
    · obtain rfl : clock = t := Option.some.inj (hat.symm.trans ht)
      simp
    · rw [List.pairwise_append]
      refine ⟨happ.apart, List.pairwise_singleton _ _, fun e _ e' he' t u f _ hu => ?_⟩
      obtain rfl : e' = .opened clock := by simpa using he'
      cases hu

section

variable {lib : StringLibrary} {d : Call} {m : Moment} {sh : Shared}
  (h : Safe b₀ (sh.breakerFor d.serviceId) now es) (hnow : now ≤ m.clock 0)

include h hnow

theorem safe_attempt (l : Locals) :
    Safe b₀ ((attempt d m l sh).shared.breakerFor d.serviceId) (m.clock 3)
      (es ++ (attempt d m l sh).events) := by
  have hbefore := h.beforeRequest (hnow.trans (m.mono (show 0 ≤ 1 by omega)))
  have hadmitted : ∀ sel a, Safe b₀ ((admitted d m sh sel).breakerFor d.serviceId) (m.clock 1)
      (es ++ [.beforeRequest (m.clock 1) a]) := by
    intro sel a
    rw [breakerFor_admitted, if_pos rfl]
    exact hbefore.append _ (by simp) (by simp)
  have hlast : m.clock 1 ≤ m.clock 3 := m.mono (by omega)
  obtain ⟨-, ha⟩ | ⟨e, -, ha⟩ | ⟨-, sel, clock, r, ⟨-, hclock⟩, ha⟩ | ⟨hok, sel, ref, -, ha⟩ :=
    attempt_cases d m l sh
  · rw [ha, List.append_nil]
    exact h.later (hnow.trans (m.mono (by omega)))
  · rw [ha]
    exact (hadmitted _ _).later hlast
  · have hbounds : m.clock 1 ≤ clock ∧ clock ≤ m.clock 3 := by
      obtain ⟨rfl, -⟩ | ⟨rfl, -⟩ := hclock
      · exact ⟨m.mono (by omega), m.mono (by omega)⟩
      · exact ⟨m.mono (by omega), le_rfl⟩
    rw [ha, List.append_cons]
    exact (safe_recordFailure (hadmitted sel true) hbounds.1).later hbounds.2
  · rw [ha, List.append_cons]
    apply (hadmitted sel true).forward _ hlast
    rw [breakerFor_admitted, if_pos rfl]
    exact beforeRequest_state_of_ok hok

theorem safe_failed (l : Locals) (o : Outcome) (kind : Retry.FailureKind) :
    Safe b₀ ((failed lib d m l o kind sh).shared.breakerFor d.serviceId) (m.clock 3)
      (es ++ (failed lib d m l o kind sh).events) := by
  have hreceived := h.append (.received o) (by simp) (by simp)
  have hfailure := safe_recordFailure hreceived hnow
  have hread : Safe b₀ (failureRead d m sh) (m.clock 1) _ :=
    hfailure.readState (m.mono (by omega))
  obtain ⟨e, ha⟩ | ha | ⟨b, -, -, -, -, ha⟩ := failed_cases lib d m l sh o kind
  · rw [ha, List.append_cons]
    exact hfailure.later (m.mono (by omega))
  · rw [ha, List.append_cons, breakerFor_setBreaker, if_pos rfl]
    exact hread.later (m.mono (by omega))
  · have hsleep := (hread.append (.sleep (m.clock 2) b) (by simp) (by simp)).later
      (show m.clock 1 ≤ m.clock 3 from m.mono (by omega))
    rw [ha, breakerFor_setBreaker, if_pos rfl]
    simpa only [List.append_assoc, List.cons_append, List.nil_append] using hsleep

theorem safe_received (l : Locals) (o : Outcome) :
    Safe b₀ ((received lib d m l o sh).shared.breakerFor d.serviceId) (m.clock 3)
      (es ++ (received lib d m l o sh).events) := by
  have hreceived := (h.later (hnow.trans (m.mono (show 0 ≤ 3 by omega)))).append (.received o)
    (by simp) (by simp)
  obtain ⟨r, -, -, ha⟩ | ⟨-, -, l', kind, -, ha⟩ | ⟨-, c, -, ha⟩ := received_cases lib d m l sh o
  · rw [ha, List.append_cons, breakerFor_setBreaker, if_pos rfl]
    exact hreceived.recordSuccess.append _ (by simp) (by simp)
  · rw [ha]
    exact safe_failed h hnow l' o kind
  · rw [ha]
    exact hreceived

theorem safe_enter : Safe b₀ ((enter d m sh).shared.breakerFor d.serviceId) (m.clock 3)
    (es ++ (enter d m sh).events) := by
  apply safe_attempt _ hnow
  rwa [breakerFor_setBreaker, if_pos rfl]

theorem safe_resume {c : Control} {signal : Signal} {seg : Segment}
    (hseg : resume lib d m sh c signal = some seg) :
    Safe b₀ (seg.shared.breakerFor d.serviceId) (m.clock 3) (es ++ seg.events) := by
  obtain ⟨l, o, -, -, rfl⟩ | ⟨l, -, -, rfl⟩ | ⟨l, -, rfl⟩ := resume_cases lib d m sh hseg
  · exact safe_received h hnow l o
  · exact safe_attempt h hnow l
  · rw [List.append_nil]
    exact h.later (hnow.trans (m.mono (by omega)))

end

def AllSafe (sh₀ : Shared) (s : System) : Prop :=
  ∀ serviceId, Safe (sh₀.breakerFor serviceId) (s.shared.breakerFor serviceId) s.now
    (eventsFor s serviceId)

theorem allSafe_record {sh₀ : Shared} {s : System} (hs : AllSafe sh₀ s) {m : Moment}
    (hnow : s.now ≤ m.clock 0) (serviceId : String) (seg : Segment) (tasks : List Task)
    (hown : Safe (sh₀.breakerFor serviceId) (seg.shared.breakerFor serviceId) (m.clock 3)
      (eventsFor s serviceId ++ seg.events))
    (hframe : ∀ other, other ≠ serviceId →
      seg.shared.breakerFor other = s.shared.breakerFor other) :
    AllSafe sh₀ (record s serviceId m seg tasks) := by
  intro other
  by_cases ho : other = serviceId
  · subst ho
    rw [eventsFor_record_self]
    exact hown
  · rw [eventsFor_record_other s (Ne.symm ho)]
    simp only [record, hframe other ho]
    exact (hs other).later (hnow.trans (m.mono (by omega)))

theorem step_allSafe (lib : StringLibrary) {sh₀ : Shared} (s : System) (i : Moment × Action)
    (t : System) (hs : AllSafe sh₀ s) (h : step lib s i t) : AllSafe sh₀ t := by
  obtain ⟨m, action⟩ := i
  by_cases hnow : s.now ≤ m.clock 0
  · cases action with
    | dispatch d =>
      obtain rfl : record s d.serviceId m (enter d m s.shared) _ = t := by
        simpa [step, next, hnow] using h
      exact allSafe_record hs hnow d.serviceId _ _ (safe_enter (hs d.serviceId) hnow)
        (fun other ho => enter_frame d m s.shared ho)
    | resume k signal =>
      cases hk : s.tasks[k]? with
      | none => simp [step, next, hnow, hk] at h
      | some task =>
        obtain ⟨seg, hseg, rfl⟩ : ∃ seg,
            resume lib task.call m s.shared task.control signal = some seg ∧
            record s task.call.serviceId m seg (s.tasks.set k (task.advance seg)) = t := by
          simpa [step, next, hnow, hk] using h
        exact allSafe_record hs hnow task.call.serviceId seg _
          (safe_resume (hs task.call.serviceId) hnow hseg)
          (fun other ho => resume_frame lib task.call m s.shared hseg ho)
  · simp [step, next, hnow] at h

/-- While a breaker is open its service is sent nothing, and when its time has run out the next
request is let through. -/
theorem fail_fast (lib : StringLibrary) {sh₀ : Shared} {now₀ : ℚ} {s : System}
    (h : Reaches (step lib) (init sh₀ now₀) s) (serviceId : String) :
    (∀ pre post t, eventsFor s serviceId = pre ++ .opened t :: post → ∀ u f, .forward u f ∈ post →
      ¬(t ≤ u ∧ u < t + (s.shared.breakerFor serviceId).config.openDurationSeconds)) ∧
    ((s.shared.breakerFor serviceId).state = .open →
      ∀ openedAt, (s.shared.breakerFor serviceId).openedAt = some openedAt →
        (.opened openedAt ∈ eventsFor s serviceId ∨ (sh₀.breakerFor serviceId).state = .open ∧
          (sh₀.breakerFor serviceId).openedAt = some openedAt) ∧
        (1 ≤ (s.shared.breakerFor serviceId).config.halfOpenMaxRequests → ∀ clock,
          openedAt + (s.shared.breakerFor serviceId).config.openDurationSeconds ≤ clock →
          (beforeRequest clock (s.shared.breakerFor serviceId)).2 = .ok ())) := by
  have hs := h.invariant (step_allSafe lib) (fun id => safe_start (sh₀.breakerFor id) now₀)
    serviceId
  refine ⟨fun pre post t hes u f hf hin => ?_,
    fun hopen openedAt hat => ⟨hs.origin hopen openedAt hat, fun hmax clock hclock => ?_⟩⟩
  · have hpair := hs.apart
    rw [hes, List.pairwise_append, List.pairwise_cons] at hpair
    have hle := hpair.2.1.1 _ hf t u f rfl rfl
    rw [hs.config] at hin
    exact absurd hin.2 (not_lt.mpr hle)
  · exact beforeRequest_due hopen hat hmax hclock

def touchy : Shared :=
  fresh.setBreaker "users-svc" { name := "users-svc", config := { minimumRequests := 1 } }

/-- One request fails at time 1 and opens the circuit, one is refused at time 5, and one at time 11
is sent as a probe. -/
def outage : List (Moment × Action) :=
  [(instant 0, .dispatch getUsers), (instant 1, .resume 0 (.outcome (.response ⟨503, .empty, []⟩))),
    (instant 5, .dispatch getUsers), (instant 11, .dispatch getUsers)]

theorem fail_fast_outage : ∃ s, Reaches (step posix) (init touchy 0) s ∧
    (eventsFor s "users-svc").countP (fun e => e matches .opened _) = 1 ∧
    (eventsFor s "users-svc").countP (fun e => e matches .forward _ _) = 2 ∧
    ∀ pre post t, eventsFor s "users-svc" = pre ++ .opened t :: post →
      ∀ u f, .forward u f ∈ post →
        ¬(t ≤ u ∧ u < t + (s.shared.breakerFor "users-svc").config.openDurationSeconds) := by
  obtain ⟨s, hr, hs⟩ := Reaches.of_check (next posix)
    (fun s => (eventsFor s "users-svc").countP (fun e => e matches .opened _) = 1 ∧
      (eventsFor s "users-svc").countP (fun e => e matches .forward _ _) = 2)
    (init touchy 0) outage (by decide +kernel)
  simp only [decide_eq_true_eq] at hs
  exact ⟨s, hr, hs.1, hs.2, (fail_fast posix hr "users-svc").1⟩

end Sentinel.FailFast
