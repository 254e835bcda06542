import Sentinel.DispatchedPipeline
import Sentinel.FailFast
import Sentinel.Operations
import Sentinel.Wedge

namespace Sentinel.Outage

open Runs Text Breaker Dispatch Simulation
open Operations (Op operate operate_config)
open Dispatches (System record eventsFor eventsFor_record_self eventsFor_record_other
  breakerFor_setBreaker breakerFor_recordFailure breakerFor_admitted resume_frame enter_frame)
open Wedge (isForward forwardsTo)
open Router (Fleet)
open FailFast (touchy)
open PathFidelity StageGating
open Pipeline (GatewayPipeline)
open DispatchedPipeline

/-- A breaker with the clock reading of the latest call, the requests that it has let through and
the successes that it was told of. -/
structure Meter where
  breaker : CircuitBreaker
  now : ℚ
  admitted : ℕ := 0
  succeeded : ℕ := 0

def admits (clock : ℚ) (b : CircuitBreaker) : Op → Bool
  | .beforeRequest => (beforeRequest clock b).2.toBool
  | _ => false

def Meter.after (s : Meter) (clock : ℚ) (op : Op) : Meter :=
  { breaker := operate clock s.breaker op
    now := clock
    admitted := s.admitted + (admits clock s.breaker op).toNat
    succeeded := s.succeeded + (decide (op = .recordSuccess)).toNat }

def call (s : Meter) (e : ℚ × Op) (t : Meter) : Prop := s.now ≤ e.1 ∧ t = s.after e.1 e.2

/-- How often the breaker can have let requests through since it opened at `since`, when it was told
of no success. -/
def Starved (since : ℚ) (config : CircuitBreakerConfig) (s : Meter) : Prop :=
  s.breaker.config = config ∧
  ((s.breaker.state = .open ∧ ∃ openedAt, s.breaker.openedAt = some openedAt ∧
      (openedAt ≤ s.now ∨ openedAt = since) ∧
      config.openDurationSeconds * s.admitted ≤ config.halfOpenMaxRequests * (openedAt - since)) ∨
    (s.breaker.state = .halfOpen ∧ s.breaker.halfOpenInFlight ≤ config.halfOpenMaxRequests ∧
      config.openDurationSeconds *
          (s.admitted + (config.halfOpenMaxRequests - s.breaker.halfOpenInFlight)) ≤
        config.halfOpenMaxRequests * (s.now - since)))

section

variable {since : ℚ} {config : CircuitBreakerConfig} {s : Meter} {clock : ℚ}
  (hmax : 0 ≤ config.halfOpenMaxRequests) (hduration : 0 ≤ config.openDurationSeconds)

include hmax

theorem Starved.readState (h : Starved since config s) (hclock : s.now ≤ clock) :
    Starved since config { s with breaker := readState clock s.breaker, now := clock } := by
  have hmax' : (0 : ℚ) ≤ config.halfOpenMaxRequests := by exact_mod_cast hmax
  obtain ⟨hconfig, hstate⟩ := h
  refine ⟨by simp [hconfig], ?_⟩
  obtain hr | ⟨openedAt, hs, ho, hdue, hr⟩ := readState_cases clock s.breaker
  · rw [hr]
    obtain ⟨hs, openedAt, ho, hpast, hle⟩ | ⟨hs, hfull, hle⟩ := hstate
    · exact .inl ⟨hs, openedAt, ho, hpast.imp_left (fun hpast => hpast.trans hclock), hle⟩
    · refine .inr ⟨hs, hfull, hle.trans ?_⟩
      exact mul_le_mul_of_nonneg_left (by linarith) hmax'
  · rw [hr]
    obtain ⟨-, openedAt', ho', -, hle⟩ | ⟨hs', -⟩ := hstate
    · obtain rfl := Option.some.inj (ho.symm.trans ho')
      rw [hconfig] at hdue
      refine .inr ⟨rfl, hmax, ?_⟩
      have hpaid : config.halfOpenMaxRequests * (openedAt - since + config.openDurationSeconds) ≤
          config.halfOpenMaxRequests * (clock - since) :=
        mul_le_mul_of_nonneg_left (by linarith) hmax'
      simp only [transitionToHalfOpen, Int.cast_zero, sub_zero]
      linarith
    · rw [hs] at hs'
      cases hs'

theorem Starved.beforeRequest (h : Starved since config s) (hclock : s.now ≤ clock) :
    Starved since config (s.after clock .beforeRequest) := by
  obtain ⟨hconfig, hstate⟩ := h.readState hmax hclock
  obtain ⟨⟨e, he⟩, hb, -⟩ | ⟨hok, hs, hroom, hb⟩ | ⟨-, hs, -⟩ := beforeRequest_cases clock s.breaker
  · have hnone : admits clock s.breaker .beforeRequest = false := by
      simp only [admits, he]
      rfl
    simp only [Meter.after, operate, hnone, hb]
    exact ⟨hconfig, hstate⟩
  · have hsome : admits clock s.breaker .beforeRequest = true := by
      simp only [admits, hok]
      rfl
    dsimp only at hstate hconfig
    simp only [Meter.after, operate, hsome, hb]
    obtain ⟨hs', -⟩ | ⟨-, -, hle⟩ := hstate
    · rw [hs] at hs'
      cases hs'
    · refine ⟨hconfig, .inr ⟨hs, ?_, ?_⟩⟩
      · rw [readState_config] at hconfig
        rw [hconfig] at hroom
        exact Int.add_one_le_of_lt hroom
      · push_cast [Bool.toNat_true]
        linarith
  · dsimp only at hstate
    rw [hs] at hstate
    simp at hstate

include hduration

theorem Starved.recordFailure (h : Starved since config s) (hclock : s.now ≤ clock) :
    Starved since config (s.after clock .recordFailure) := by
  have hmax' : (0 : ℚ) ≤ config.halfOpenMaxRequests := by exact_mod_cast hmax
  obtain ⟨hconfig, hstate⟩ := h
  refine ⟨by simp [Meter.after, hconfig], ?_⟩
  obtain ⟨hs, hb⟩ | ⟨hs, hb⟩ := recordFailure_cases clock s.breaker
  · obtain ⟨hs', openedAt, ho, hpast, hle⟩ | ⟨hs', -⟩ := hstate
    · simp only [Meter.after, operate, hb]
      exact .inl ⟨hs', openedAt, ho, hpast.imp_left (fun hpast => hpast.trans hclock), hle⟩
    · exact absurd hs' hs
  · obtain ⟨hs', -⟩ | ⟨-, hfull, hle⟩ := hstate
    · exact absurd hs' hs
    · simp only [Meter.after, operate, hb]
      refine .inl ⟨rfl, clock, rfl, .inl le_rfl, ?_⟩
      have hspare : 0 ≤ config.openDurationSeconds *
          (config.halfOpenMaxRequests - s.breaker.halfOpenInFlight : ℚ) := by
        apply mul_nonneg hduration
        have : (s.breaker.halfOpenInFlight : ℚ) ≤ config.halfOpenMaxRequests := by
          exact_mod_cast hfull
        linarith
      have hlater : config.halfOpenMaxRequests * (s.now - since) ≤
          config.halfOpenMaxRequests * (clock - since) :=
        mul_le_mul_of_nonneg_left (by linarith) hmax'
      simp only [admits, Bool.toNat_false, Nat.add_zero]
      linarith

theorem starved_call {t : Meter} {e : ℚ × Op}
    (h : s.succeeded = 0 → Starved since config s) (hcall : call s e t) :
    t.succeeded = 0 → Starved since config t := by
  obtain ⟨clock, op⟩ := e
  obtain ⟨hclock, rfl⟩ := hcall
  intro hnone
  have hs := h (by simp only [Meter.after] at hnone; omega)
  cases op with
  | readState => exact hs.readState hmax hclock
  | beforeRequest => exact hs.beforeRequest hmax hclock
  | recordSuccess => simp [Meter.after] at hnone
  | recordFailure => exact hs.recordFailure hmax hduration hclock

end

def isSuccess : Event → Bool
  | .recordSuccess => true
  | _ => false

/-- Calls take the breaker from one state to the other within the time, let at least as many
requests through as are sent, and tell it of the successes that are logged. -/
def Driven (b : CircuitBreaker) (now : ℚ) (es : List Event) (b' : CircuitBreaker) (now' : ℚ) :
    Prop :=
  ∀ s : Meter, s.breaker = b → s.now ≤ now → ∃ t, Reaches call s t ∧ t.breaker = b' ∧
    t.now ≤ now' ∧ s.admitted + es.countP isForward ≤ t.admitted ∧
    t.succeeded = s.succeeded + es.countP isSuccess

section

variable {b b' b'' : CircuitBreaker} {now now' now'' : ℚ} {es es' : List Event}

theorem Driven.trans (h : Driven b now es b' now') (h' : Driven b' now' es' b'' now'') :
    Driven b now (es ++ es') b'' now'' := by
  intro s hb hnow
  obtain ⟨t, hst, hb', hnow', hforwards, hsuccesses⟩ := h s hb hnow
  obtain ⟨u, htu, hb'', hnow'', hforwards', hsuccesses'⟩ := h' t hb' hnow'
  refine ⟨u, hst.trans htu, hb'', hnow'', ?_, ?_⟩
  · rw [List.countP_append]
    omega
  · rw [List.countP_append]
    omega

theorem Driven.later (h : Driven b now es b' now') (hle : now' ≤ now'') :
    Driven b now es b' now'' := by
  intro s hb hnow
  obtain ⟨t, hst, hb', hnow', hcounts⟩ := h s hb hnow
  exact ⟨t, hst, hb', hnow'.trans hle, hcounts⟩

theorem driven_quiet (hnow : now ≤ now') (hforwards : es.countP isForward = 0)
    (hsuccesses : es.countP isSuccess = 0) : Driven b now es b now' :=
  fun s hb hs => ⟨s, .refl s, hb, hs.trans hnow, by omega, by omega⟩

theorem driven_call {clock : ℚ} (op : Op) (hnow : now ≤ clock)
    (hforwards : es.countP isForward ≤ (admits clock b op).toNat)
    (hsuccesses : es.countP isSuccess = (decide (op = .recordSuccess)).toNat) :
    Driven b now es (operate clock b op) clock := by
  rintro s rfl hs
  refine ⟨s.after clock op, .head (i := (clock, op)) ⟨hs.trans hnow, rfl⟩ (.refl _), rfl, le_rfl,
    ?_, ?_⟩
  · exact Nat.add_le_add_left hforwards _
  · rw [hsuccesses]
    rfl

theorem recordFailure_counts (sh : Shared) (x : String) (clock : ℚ) :
    (sh.recordFailure x clock).2.1.countP isForward = 0 ∧
      (sh.recordFailure x clock).2.1.countP isSuccess = 0 := by
  obtain ⟨rest, he, hrest⟩ := sh.recordFailure_events x clock
  rw [he]
  constructor
  all_goals
    rw [List.countP_cons_of_neg (by simp [isForward, isSuccess]), List.countP_eq_zero]
    intro e hmem
    rw [hrest e hmem]
    simp [isForward, isSuccess]

end

section

variable {lib : StringLibrary} {d : Call} {m : Moment} {l : Locals} {sh : Shared}

theorem attempt_driven : Driven (sh.breakerFor d.serviceId) (m.clock 0) (attempt d m l sh).events
    ((attempt d m l sh).shared.breakerFor d.serviceId) (m.clock 3) := by
  have hone : m.clock 0 ≤ m.clock 1 := m.mono (by omega)
  have hlast : m.clock 1 ≤ m.clock 3 := m.mono (by omega)
  obtain ⟨-, ha⟩ | ⟨e, -, ha⟩ | ⟨hok, sel, clock, r, ⟨-, hclock⟩, ha⟩ | ⟨hok, sel, ref, -, ha⟩ :=
    attempt_cases d m l sh
  · rw [ha]
    exact driven_quiet (m.mono (by omega)) rfl rfl
  · rw [ha]
    simp only [breakerFor_admitted, ↓reduceIte]
    exact (driven_call .beforeRequest hone (by simp [isForward])
      (by simp [isSuccess])).later hlast
  · have hbounds : m.clock 1 ≤ clock ∧ clock ≤ m.clock 3 := by
      obtain ⟨rfl, -⟩ | ⟨rfl, -⟩ := hclock
      · exact ⟨m.mono (by omega), m.mono (by omega)⟩
      · exact ⟨m.mono (by omega), le_rfl⟩
    obtain ⟨hforwards, hsuccesses⟩ := recordFailure_counts (admitted d m sh sel) d.serviceId clock
    have hbefore : Driven (sh.breakerFor d.serviceId) (m.clock 0) [.beforeRequest (m.clock 1) true]
        ((admitted d m sh sel).breakerFor d.serviceId) (m.clock 1) := by
      rw [breakerFor_admitted, if_pos rfl]
      exact driven_call .beforeRequest hone (by simp [isForward]) (by simp [isSuccess])
    rw [ha]
    simp only [breakerFor_recordFailure, ↓reduceIte]
    exact hbefore.trans ((driven_call .recordFailure hbounds.1 hforwards.le
      hsuccesses).later hbounds.2)
  · have hadmits : admits (m.clock 1) (sh.breakerFor d.serviceId) .beforeRequest = true := by
      simp only [admits, hok]
      rfl
    rw [ha]
    simp only [breakerFor_admitted, ↓reduceIte]
    refine (driven_call .beforeRequest hone ?_ (by simp [isSuccess])).later hlast
    rw [hadmits]
    simp [isForward]

theorem failed_driven (o : Outcome) (kind : Retry.FailureKind) :
    Driven (sh.breakerFor d.serviceId) (m.clock 0) (failed lib d m l o kind sh).events
      ((failed lib d m l o kind sh).shared.breakerFor d.serviceId) (m.clock 3) := by
  obtain ⟨hforwards, hsuccesses⟩ := recordFailure_counts sh d.serviceId (m.clock 0)
  have hfailure : Driven (sh.breakerFor d.serviceId) (m.clock 0)
      (.received o :: (sh.recordFailure d.serviceId (m.clock 0)).2.1)
      ((sh.recordFailure d.serviceId (m.clock 0)).1.breakerFor d.serviceId) (m.clock 0) := by
    rw [breakerFor_recordFailure, if_pos rfl]
    refine driven_call .recordFailure le_rfl ?_ ?_
    · rw [List.countP_cons_of_neg (by simp [isForward]), hforwards]
      exact Nat.zero_le _
    · rw [List.countP_cons_of_neg (by simp [isSuccess]), hsuccesses]
      rfl
  have hread : ∀ es : List Event, es.countP isForward = 0 → es.countP isSuccess = 0 →
      Driven ((sh.recordFailure d.serviceId (m.clock 0)).1.breakerFor d.serviceId) (m.clock 0) es
        (failureRead d m sh) (m.clock 3) := fun es hf hs =>
    (driven_call .readState (m.mono (show 0 ≤ 1 by omega)) (by simp [hf])
      (by simp [hs])).later (m.mono (by omega))
  obtain ⟨e, ha⟩ | ha | ⟨backoffMs, -, -, -, -, ha⟩ := failed_cases lib d m l sh o kind
  · rw [ha]
    exact hfailure.later (m.mono (by omega))
  · rw [ha]
    simp only [breakerFor_setBreaker, ↓reduceIte]
    have := hfailure.trans (hread [] rfl rfl)
    rwa [List.append_nil] at this
  · rw [ha]
    simp only [breakerFor_setBreaker, ↓reduceIte]
    exact hfailure.trans (hread [.sleep (m.clock 2) backoffMs] rfl rfl)

theorem received_driven (o : Outcome) :
    Driven (sh.breakerFor d.serviceId) (m.clock 0) (received lib d m l o sh).events
      ((received lib d m l o sh).shared.breakerFor d.serviceId) (m.clock 3) := by
  have hlast : m.clock 0 ≤ m.clock 3 := m.mono (by omega)
  obtain ⟨r, -, -, ha⟩ | ⟨-, -, l', kind, -, ha⟩ | ⟨-, c, -, ha⟩ := received_cases lib d m l sh o
  · rw [ha]
    simp only [breakerFor_setBreaker, ↓reduceIte]
    exact (driven_call .recordSuccess le_rfl (by simp [isForward])
      (by simp [isSuccess])).later hlast
  · rw [ha]
    exact failed_driven o kind
  · rw [ha]
    exact driven_quiet hlast rfl rfl

theorem enter_driven : Driven (sh.breakerFor d.serviceId) (m.clock 0) (enter d m sh).events
    ((enter d m sh).shared.breakerFor d.serviceId) (m.clock 3) := by
  have hsame : (sh.setBreaker d.serviceId (sh.breakerFor d.serviceId)).breakerFor d.serviceId =
      sh.breakerFor d.serviceId := by rw [breakerFor_setBreaker, if_pos rfl]
  have h : Driven ((sh.setBreaker d.serviceId (sh.breakerFor d.serviceId)).breakerFor d.serviceId)
      (m.clock 0) (enter d m sh).events ((enter d m sh).shared.breakerFor d.serviceId)
      (m.clock 3) := attempt_driven
  rwa [hsame] at h

theorem resume_driven {c : Control} {signal : Signal} {seg : Segment}
    (h : resume lib d m sh c signal = some seg) :
    Driven (sh.breakerFor d.serviceId) (m.clock 0) seg.events
      (seg.shared.breakerFor d.serviceId) (m.clock 3) := by
  obtain ⟨l, o, -, -, rfl⟩ | ⟨l, -, -, rfl⟩ | ⟨l, -, rfl⟩ := resume_cases lib d m sh h
  · exact received_driven o
  · exact attempt_driven
  · exact driven_quiet (m.mono (by omega)) rfl rfl

end

def successesOf (s : System) (x : String) : ℕ := (eventsFor s x).countP isSuccess

structure Measures (x : String) (forwards successes : ℕ) (s : System) (M : Meter) : Prop where
  breaker : M.breaker = s.shared.breakerFor x
  now : M.now ≤ s.now
  forwards : forwardsTo s x ≤ forwards + M.admitted
  successes : successesOf s x = successes + M.succeeded

section

variable {lib : StringLibrary} {x : String} {forwards successes : ℕ} {s t : System} {M : Meter}

theorem record_measures (hM : Measures x forwards successes s M) {m : Moment} {seg : Segment}
    (hclock : s.now ≤ m.clock 0) (y : String) (tasks : List Task)
    (hown : y = x → Driven (s.shared.breakerFor x) (m.clock 0) seg.events
      (seg.shared.breakerFor x) (m.clock 3))
    (hframe : x ≠ y → seg.shared.breakerFor x = s.shared.breakerFor x) :
    ∃ M', Reaches call M M' ∧ Measures x forwards successes (record s y m seg tasks) M' := by
  obtain ⟨hbreaker, hnow, hforwards, hsuccesses⟩ := hM
  by_cases hy : y = x
  · subst hy
    obtain ⟨M', hreach, hb, hnow', hf, hs⟩ := hown rfl M hbreaker (hnow.trans hclock)
    refine ⟨M', hreach, hb, hnow', ?_, ?_⟩
    · rw [forwardsTo, eventsFor_record_self, List.countP_append]
      unfold forwardsTo at hforwards
      omega
    · rw [successesOf, eventsFor_record_self, List.countP_append]
      unfold successesOf at hsuccesses
      omega
  · refine ⟨M, .refl M, hbreaker.trans (hframe (Ne.symm hy)).symm, ?_, ?_, ?_⟩
    · exact hnow.trans (hclock.trans (m.mono (by omega)))
    · rw [forwardsTo, eventsFor_record_other s hy]
      exact hforwards
    · rw [successesOf, eventsFor_record_other s hy]
      exact hsuccesses

theorem step_measures {i : Moment × Dispatches.Action} (hM : Measures x forwards successes s M)
    (h : Dispatches.step lib s i t) :
    ∃ M', Reaches call M M' ∧ Measures x forwards successes t M' := by
  obtain ⟨m, a⟩ := i
  obtain ⟨hclock, ⟨d, -, rfl⟩ | ⟨k, signal, task, seg, ⟨-, -, hseg⟩, rfl⟩⟩ :=
    Dispatches.step_cases h
  · exact record_measures hM hclock d.serviceId _ (by rintro rfl; exact enter_driven)
      (enter_frame d m s.shared)
  · exact record_measures hM hclock task.call.serviceId _ (by rintro rfl; exact resume_driven hseg)
      (resume_frame lib task.call m s.shared hseg)

end

def sent (t : Timed) (x : String) : ℕ :=
  (t.log.filterMap (fun e => if e.1 = x then some e.2 else none)).countP isForward

def successes (t : Timed) (x : String) : ℕ :=
  (t.log.filterMap (fun e => if e.1 = x then some e.2 else none)).countP isSuccess

/-- A service that is down is left in peace: however many requests come in, and however many are
retried, the gateway sends it no more than `half_open_max_requests` of them each time
`open_duration_seconds` have passed since its circuit opened. -/
theorem outage_load_bounded {lib : StringLibrary} {p : GatewayPipeline} {fleet : Fleet}
    {backing : Requests.Backing} {now : ℚ} {t u : Timed} {x : String} {b : CircuitBreaker}
    {since : ℚ} (h : Reaches (step lib p) (start fleet backing now) t)
    (hrun : Reaches (step lib p) t u) (hb : t.world.backing.gateway.shared.breakerFor x = b)
    (hopen : b.state = .open) (hsince : b.openedAt = some since) (hpast : since ≤ u.now)
    (hmax : 0 ≤ b.config.halfOpenMaxRequests) (hduration : 0 ≤ b.config.openDurationSeconds)
    (hdown : successes u x = successes t x) :
    b.config.openDurationSeconds * ((sent u x : ℚ) - sent t x) ≤
      b.config.halfOpenMaxRequests * (u.now - since) := by
  have hmax' : (0 : ℚ) ≤ b.config.halfOpenMaxRequests := by exact_mod_cast hmax
  obtain ⟨s, -, hR⟩ := reaches_refines h (refines_start p fleet backing now)
  obtain ⟨s', hs', hR'⟩ := reaches_refines hrun hR
  obtain ⟨M, hM, hmeasures⟩ := reaches_of_simulation
    (R := Measures x (forwardsTo s x) (successesOf s x))
    (fun _ _ _ _ hM hstep => step_measures hM hstep) hs'
    (a := { breaker := s.shared.breakerFor x, now := s.now }) ⟨rfl, le_rfl, le_rfl, rfl⟩
  have hsent : sent u x ≤ sent t x + M.admitted := by
    have := hmeasures.forwards
    simp only [forwardsTo, eventsFor, hR.log, hR'.log] at this
    exact this
  have hnone : M.succeeded = 0 := by
    have := hmeasures.successes
    simp only [successesOf, eventsFor, hR.log, hR'.log] at this
    unfold successes at hdown
    omega
  have hstart : Starved since b.config { breaker := s.shared.breakerFor x, now := s.now } := by
    rw [hR.shared, hb]
    exact ⟨rfl, .inl ⟨hopen, since, hsince, .inr rfl, by simp⟩⟩
  obtain ⟨-, hstate⟩ := hM.invariant
    (I := fun M => M.succeeded = 0 → Starved since b.config M)
    (fun _ _ _ hs hcall => starved_call hmax hduration hs hcall) (fun _ => hstart) hnone
  have hnow : M.now ≤ u.now := hmeasures.now.trans hR'.now
  have hadmitted : b.config.openDurationSeconds * (M.admitted : ℚ) ≤
      b.config.halfOpenMaxRequests * (u.now - since) := by
    obtain ⟨-, openedAt, -, hlast, hle⟩ | ⟨-, hroom, hle⟩ := hstate
    · refine hle.trans (mul_le_mul_of_nonneg_left ?_ hmax')
      obtain hlast | rfl := hlast <;> linarith
    · have hspare : 0 ≤ b.config.openDurationSeconds *
          (b.config.halfOpenMaxRequests - M.breaker.halfOpenInFlight : ℚ) := by
        apply mul_nonneg hduration
        have : (M.breaker.halfOpenInFlight : ℚ) ≤ b.config.halfOpenMaxRequests := by
          exact_mod_cast hroom
        linarith
      have hlater : b.config.halfOpenMaxRequests * (M.now - since) ≤
          b.config.halfOpenMaxRequests * (u.now - since) :=
        mul_le_mul_of_nonneg_left (by linarith) hmax'
      linarith
  refine (mul_le_mul_of_nonneg_left ?_ hduration).trans hadmitted
  have : (sent u x : ℚ) ≤ sent t x + M.admitted := by exact_mod_cast hsent
  linarith

def probe : List Requests.Action :=
  (forwarded 1 98).map (fun a => match a with
    | .resume i _ signal => .resume i (instant 11) signal
    | a => a)

theorem outage_load_bounded_users : ∃ t u,
    Reaches (step posix users) (start usersFleet ⟨.empty, ⟨touchy, .new {}⟩⟩ 0) t ∧
    Reaches (step posix users) t u ∧ sent t "users-svc" = 1 ∧ sent u "users-svc" = 2 ∧
    10 * ((sent u "users-svc" : ℚ) - sent t "users-svc") ≤ 3 * (u.now - 1) := by
  let tripped (t : Timed) : Bool :=
    let b := t.world.backing.gateway.shared.breakerFor "users-svc"
    b.state = .open ∧ b.openedAt = some 1 ∧ b.config = { minimumRequests := 1 }
  let probed (t u : Timed) : Bool :=
    sent t "users-svc" = 1 ∧ sent u "users-svc" = 2 ∧ 1 ≤ u.now ∧
      successes u "users-svc" = successes t "users-svc"
  obtain ⟨t, ht, hc⟩ := Reaches.of_check (next posix users)
    (fun t => tripped t && (probe.foldlM (next posix users) t).any (probed t))
    (start usersFleet ⟨.empty, ⟨touchy, .new {}⟩⟩ 0)
    (forwarded 0 99 ++
      [.resume 0 (instant 1) (.dispatch (.outcome (.response ⟨503, .empty, []⟩)))])
    (by decide +kernel)
  obtain ⟨htripped, hprobed⟩ := Bool.and_eq_true_iff.mp hc
  obtain ⟨u, hu, hcu⟩ := Reaches.of_check (next posix users) (probed t) t probe hprobed
  simp only [tripped, probed, decide_eq_true_eq] at htripped hcu
  obtain ⟨hopen, hsince, hconfig⟩ := htripped
  obtain ⟨hbefore, hafter, hpast, hdown⟩ := hcu
  have hbound := outage_load_bounded ht hu rfl hopen hsince hpast (by rw [hconfig]; decide)
    (by rw [hconfig]; decide) hdown
  rw [hconfig] at hbound
  exact ⟨t, u, ht, hu, hbefore, hafter, hbound⟩

end Sentinel.Outage
