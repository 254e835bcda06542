import Sentinel.GateAccounting
import Sentinel.Simulation
import Sentinel.StageGating

namespace Sentinel.GatedPipeline

open Runs Text Router Dispatch Pipeline Requests GateMoves GateAccounting Tally Simulation
open PathFidelity StageGating
open Gates hiding Event next step

def gateRequest : Stage → Option Request
  | .acquiring _ r | .dispatching _ r _ => some r
  | _ => none

def present (r : Request) : Option Request :=
  match r.phase with
  | .left _ => none
  | _ => some r

theorem present_left {r : Request} {exit : Exit} (h : r.phase = .left exit) : present r = none := by
  simp [present, h]

theorem present_of_ne {r : Request} (h : ∀ exit, r.phase ≠ .left exit) : present r = some r := by
  cases hp : r.phase with
  | left exit => exact absurd hp (h exit)
  | waiting | granted | inside => simp [present, hp]

theorem eq_of_present {r r' : Request} (h : present r = some r') :
    r = r' ∧ ∀ exit, r.phase ≠ .left exit := by
  cases hp : r.phase with
  | left exit => simp [present, hp] at h
  | waiting | granted | inside => exact ⟨by simpa [present, hp] using h, by simp⟩

def gateRequests (w : World) : List Request := w.requests.filterMap (fun h => gateRequest h.stage)

/-- The gates of the pipeline are a system of gates, with a request there for each request of the
pipeline inside `acquire_all`. -/
structure Refines (w : World) (s : System) : Prop where
  manager : s.manager = w.backing.gateway.concurrency
  requests : (gateRequests w).Perm (s.requests.filterMap present)
  inside : ∀ h ∈ w.requests, ∀ route r c, h.stage = .dispatching route r c → r.phase = .inside

def Wakes : ConcurrencyManager × Request → ConcurrencyManager × Request → Prop :=
  Reaches (fun p w p' => progress p.1 p.2 w = some p')

theorem reaches_of_wakes {s : System} {j : ℕ} {r : Request} {p : ConcurrencyManager × Request}
    (hj : s.requests[j]? = some r) (h : Wakes (s.manager, r) p) :
    Reaches Gates.step s ⟨p.1, s.requests.set j p.2⟩ := by
  obtain ⟨hlt, hr⟩ := List.getElem?_eq_some_iff.mp hj
  induction h with
  | refl =>
    subst hr
    simpa using Reaches.refl s
  | @tail p p' _ hi ih =>
    obtain ⟨w, hw⟩ := hi
    refine ih.tail (i := .wake j w) ?_
    simp [Gates.step, Gates.next, hlt, hw]

theorem inside_wakes {r : Request} (hp : r.phase = .inside)
    (hheld : r.held = [.global, .tenant, .route, .backend]) (route : RouteDefinition)
    (m : ConcurrencyManager) (seg : Segment) :
    ∃ r', Wakes (m, r) ((inside route r m seg).gateway.concurrency, r') ∧
      gateRequest (inside route r m seg).stage = present r' ∧
      ∀ route' r₁ c, (inside route r m seg).stage = .dispatching route' r₁ c →
        r₁.phase = .inside := by
  cases hc : seg.control with
  | returned result =>
    have hw : progress m r .finish = some (unwind r.held .completed m r) := by
      simp only [progress, hp, hheld]
    refine ⟨(unwind r.held .completed m r).2, ?_, ?_, ?_⟩
    · simp only [inside, hc]
      exact .head (i := .finish) hw (.refl _)
    · simp [inside, hc, gateRequest, present, unwind]
    · simp [inside, hc]
  | raised e =>
    have hw : progress m r .fail = some (unwind r.held .raised m r) := by
      simp only [progress, hp, hheld]
    refine ⟨(unwind r.held .raised m r).2, ?_, ?_, ?_⟩
    · simp only [inside, hc]
      exact .head (i := .fail) hw (.refl _)
    · simp [inside, hc, gateRequest, present, unwind]
    · simp [inside, hc]
  | forwarding l | sleeping l =>
    refine ⟨r, ?_, ?_, ?_⟩
    · simp only [inside, hc]
      exact .refl _
    · simp [inside, hc, gateRequest, present, hp]
    · simp only [inside, hc]
      rintro route' r₁ c h
      cases h
      exact hp

section

variable {lib : StringLibrary} {p : GatewayPipeline} {q : Inbound} {m : Moment} {g : Gateway}
  {route : RouteDefinition} {r : Request} {st : Stretch}

theorem throughGates_wakes {w : Wake} (hr : r.held = scope r.phase)
    (h : throughGates p q m g route r w = some st) :
    ∃ r', Wakes (g.concurrency, r) (st.gateway.concurrency, r') ∧
      gateRequest st.stage = present r' ∧
      ∀ route' r₁ c, st.stage = .dispatching route' r₁ c → r₁.phase = .inside := by
  cases hw : progress g.concurrency r w with
  | none => simp [throughGates, hw] at h
  | some pair =>
    obtain ⟨concurrency, r'⟩ := pair
    obtain ⟨-, -, hheld, -⟩ := progress_moves hw hr
    have hone : Wakes (g.concurrency, r) (concurrency, r') := .head (i := w) hw (.refl _)
    simp only [throughGates, hw] at h
    cases hp : r'.phase with
    | waiting l | granted l =>
      simp only [hp, Option.some.injEq] at h
      subst h
      exact ⟨r', hone, (present_of_ne (by simp [hp])).symm, by simp⟩
    | inside =>
      simp only [hp, Option.some.injEq] at h
      subst h
      obtain ⟨r'', hwakes, hrest⟩ := inside_wakes hp (by rw [hheld, hp]; rfl) route concurrency
        (enter (callOf p q route) m g.shared)
      exact ⟨r'', hone.trans hwakes, hrest⟩
    | left exit =>
      cases exit <;> simp only [hp, Option.some.injEq] at h <;> subst h
      all_goals exact ⟨r', hone, (present_left hp).symm, by simp⟩

theorem proceed_wakes {stage : Stage} {signal : Resumption}
    (hr : ∀ r, gateRequest stage = some r → r.held = scope r.phase)
    (hin : ∀ route r c, stage = .dispatching route r c → r.phase = .inside)
    (h : proceed lib p q m g stage signal = some st) :
    (gateRequest stage = none ∧ gateRequest st.stage = none ∧
      st.gateway.concurrency = g.concurrency) ∨
    (∃ ids, gateRequest stage = none ∧ gateRequest st.stage = some { ids := ids } ∧
      st.gateway.concurrency = g.concurrency.register ids ∧
      ∀ route r c, st.stage ≠ .dispatching route r c) ∨
    (∃ r r', gateRequest stage = some r ∧
      Wakes (g.concurrency, r) (st.gateway.concurrency, r') ∧
      gateRequest st.stage = present r' ∧
      ∀ route r c, st.stage = .dispatching route r c → r.phase = .inside) := by
  obtain ⟨route, reply, ⟨rfl, -⟩, ⟨-, rfl⟩ | ⟨-, rfl⟩⟩ | ⟨route, rfl, rfl⟩ |
    ⟨route, r, w, ⟨rfl, -⟩, hw⟩ | ⟨route, r, c, signal', seg, rfl, -, rfl⟩ := proceed_cases h
  · exact .inl ⟨rfl, rfl, rfl⟩
  · exact .inr (.inl ⟨idsOf q route, rfl, rfl, rfl, by simp⟩)
  · exact .inl ⟨rfl, rfl, rfl⟩
  · obtain ⟨r', hwakes, hrest⟩ := throughGates_wakes (hr r rfl) hw
    exact .inr (.inr ⟨r, r', rfl, hwakes, hrest⟩)
  · have hp := hin route r c rfl
    obtain ⟨r', hwakes, hrest⟩ := inside_wakes hp (by rw [hr r rfl, hp]; rfl) route
      g.concurrency seg
    exact .inr (.inr ⟨r, r', rfl, hwakes, hrest⟩)

end

variable {lib : StringLibrary} {p : GatewayPipeline} {w w' : World} {s : System}
  {limits : ConcurrencyLimits}

theorem Refines.mem_present (hR : Refines w s) {h : Handled} (hmem : h ∈ w.requests) {r : Request}
    (hr : gateRequest h.stage = some r) : r ∈ s.requests ∧ present r = some r := by
  have hin : r ∈ gateRequests w := List.mem_filterMap.mpr ⟨h, hmem, hr⟩
  obtain ⟨r', hr', hpresent⟩ := List.mem_filterMap.mp (hR.requests.mem_iff.mp hin)
  obtain ⟨rfl, -⟩ := eq_of_present hpresent
  exact ⟨hr', hpresent⟩

theorem inside_set {i : ℕ} {h' : Handled}
    (hall : ∀ h ∈ w.requests, ∀ route r c, h.stage = .dispatching route r c → r.phase = .inside)
    (hnew : ∀ route r c, h'.stage = .dispatching route r c → r.phase = .inside) :
    ∀ h ∈ w.requests.set i h', ∀ route r c, h.stage = .dispatching route r c →
      r.phase = .inside := by
  intro h hmem
  obtain hmem | rfl := List.mem_or_eq_of_mem_set hmem
  · exact hall h hmem
  · exact hnew

theorem resume_refines (hR : Refines w s) (hs : Accounted limits s) {i : ℕ} {h : Handled}
    (hi : w.requests[i]? = some h) {m : Moment} {signal : Resumption} {st : Stretch}
    (hst : proceed lib p h.inbound m w.backing.gateway h.stage signal = some st) :
    ∃ t, Reaches Gates.step s t ∧ Refines (w.move i h (resumed w signal st)) t := by
  have hmem := List.mem_of_getElem? hi
  have hscope : ∀ r, gateRequest h.stage = some r → r.held = scope r.phase :=
    fun r hr => hs.nested r (hR.mem_present hmem hr).1
  obtain ⟨hold, hnew, hsame⟩ | ⟨ids, hold, hnew, hreg, hnot⟩ | ⟨r, r', hold, hwakes, hnew, hin⟩ :=
    proceed_wakes hscope (hR.inside h hmem) hst
  · refine ⟨s, .refl s, hR.manager.trans hsame.symm, ?_, inside_set hR.inside ?_⟩
    · exact (filterMap_set_perm_of_none hi hold hnew).trans hR.requests
    · intro route r c hc
      rw [show st.stage = .dispatching route r c from hc] at hnew
      simp [gateRequest] at hnew
  · refine ⟨acquireAll s ids, .head (i := .acquireAll ids) rfl (.refl _), ?_, ?_,
      inside_set hR.inside (fun route r c hc => absurd hc (hnot route r c))⟩
    · simp only [acquireAll, hR.manager]
      exact hreg.symm
    · exact perm_filterMap_set_concat hR.requests hi hold hnew
  · obtain ⟨hr, hpresent⟩ := hR.mem_present hmem hold
    obtain ⟨j, hj⟩ := List.mem_iff_getElem?.mp hr
    rw [← hR.manager] at hwakes
    refine ⟨_, reaches_of_wakes hj hwakes, rfl, ?_, inside_set hR.inside hin⟩
    exact perm_filterMap_set hR.requests hi hj (hold.trans hpresent.symm) hnew

theorem step_refines {a : Requests.Action} (hR : Refines w s) (hs : Accounted limits s)
    (hstep : Requests.step lib p w a w') : ∃ t, Reaches Gates.step s t ∧ Refines w' t := by
  obtain ⟨q, nowMs, rfl, rfl⟩ | ⟨i, overflow, h, route, rfl, ⟨hi, hstage, -⟩, rfl⟩ |
    ⟨i, m, signal, h, st, rfl, ⟨hi, -, hst⟩, rfl⟩ | ⟨r, status, rfl, rfl⟩ | ⟨buckets, rfl, rfl⟩ :=
    step_cases hstep
  · have hnone : gateRequest (handle lib p q) = none ∧
        ∀ route r c, handle lib p q ≠ .dispatching route r c := by
      obtain ⟨-, he⟩ | ⟨-, ⟨-, he⟩ | ⟨route, -, he⟩⟩ := handle_cases lib p q
      all_goals simp [he, gateRequest]
    refine ⟨s, .refl s, hR.manager, ?_, ?_⟩
    · simpa [gateRequests, hnone.1] using hR.requests
    · intro h hmem route r c hc
      obtain hmem | rfl := (List.mem_append.mp hmem).imp_right List.mem_singleton.mp
      · exact hR.inside h hmem route r c hc
      · exact absurd hc (hnone.2 route r c)
  · refine ⟨s, .refl s, hR.manager, ?_,
      inside_set hR.inside (by simp [Handled.move, scripted, hstage])⟩
    exact (filterMap_set_perm_of_none hi (by rw [hstage]; rfl)
      (by simp [Handled.move, scripted, hstage, gateRequest])).trans hR.requests
  · exact resume_refines hR hs hi hst
  · exact ⟨s, .refl s, hR.manager, hR.requests, hR.inside⟩
  · exact ⟨s, .refl s, hR.manager, hR.requests, hR.inside⟩

theorem countP_gateRequests (hR : Refines w s) {P : Request → Bool}
    (hP : ∀ r ∈ s.requests, P r = true → ∀ exit, r.phase ≠ .left exit) :
    s.requests.countP P = (gateRequests w).countP P := by
  rw [hR.requests.countP_eq, List.countP_filterMap]
  refine List.countP_congr (fun r hr => ?_)
  cases hp : r.phase with
  | left exit =>
    have hnot : P r = false := Bool.eq_false_iff.mpr (fun h => hP r hr h exit hp)
    simp [present, hp, hnot]
  | waiting | granted | inside => simp [present, hp]

theorem holders_eq (hR : Refines w s) (hs : Accounted limits s) (l : Level) (n : String) :
    holders s l n = (gateRequests w).countP (holds l n) := by
  refine countP_gateRequests hR (fun r hr hh exit hp => ?_)
  simp [holds, hs.nested r hr, hp, scope] at hh

theorem owners_eq (hR : Refines w s) (l : Level) (n : String) :
    owners s l n = (gateRequests w).countP (owns l n) := by
  refine countP_gateRequests hR (fun r _ ho exit hp => ?_)
  simp [owns, hp] at ho

theorem idle_gates (hR : Refines w s) (hs : Accounted limits s)
    (hidle : ∀ h ∈ w.requests, gateRequest h.stage = none) {l : Level} {n : String}
    {g : BoundedConcurrencyGate} (hg : w.backing.gateway.concurrency.gate? l n = some g) :
    g.inFlight = 0 ∧ g.permits = g.limit := by
  have hnone : gateRequests w = [] := List.filterMap_eq_nil_iff.mpr hidle
  rw [← hR.manager] at hg
  have hflight := hs.inFlight l n g hg
  have hpermits := hs.permits l n g hg
  rw [holders_eq hR hs, hnone] at hflight hpermits
  rw [owners_eq hR, hnone] at hpermits
  exact ⟨by simpa using hflight, by simpa using hpermits⟩

def Named (h : Handled) : Prop :=
  match h.stage with
  | .acquiring route r | .dispatching route r _ => r.ids = idsOf h.inbound route
  | _ => True

theorem inside_named {h : Handled} {route : RouteDefinition} {r : Request}
    {m : ConcurrencyManager} {seg : Segment} {mv : Move} (hr : r.ids = idsOf h.inbound route)
    (hmv : mv.stage = (inside route r m seg).stage) : Named (h.move mv) := by
  simp only [Named, Handled.move, hmv]
  obtain ⟨_, _, -, he⟩ | ⟨_, _, -, he⟩ | he := inside_cases route r m seg
  · simp [he]
  · simp [he]
  · simpa only [he] using hr

theorem resume_named {h : Handled} (hn : Named h) {m : Moment} {signal : Resumption} {st : Stretch}
    (hst : proceed lib p h.inbound m w.backing.gateway h.stage signal = some st) :
    Named (h.move (resumed w signal st)) := by
  obtain ⟨route, reply, -, ⟨-, rfl⟩ | ⟨-, rfl⟩⟩ | ⟨route, -, rfl⟩ |
    ⟨route, r, wake, ⟨hstage, -⟩, hw⟩ | ⟨route, r, c, signal', seg, hstage, -, rfl⟩ :=
    proceed_cases hst
  · trivial
  · exact rfl
  · trivial
  · have hr : r.ids = idsOf h.inbound route := by simpa only [Named, hstage] using hn
    obtain ⟨concurrency, r', hp, hcase⟩ := throughGates_cases hw
    have hids := progress_ids hp
    obtain rfl | ⟨-, rfl⟩ | ⟨scope, -, rfl⟩ | rfl := hcase
    · exact hids.trans hr
    · exact inside_named (hids.trans hr) rfl
    · trivial
    · trivial
  · exact inside_named (by simpa only [Named, hstage] using hn) rfl

theorem step_named {a : Requests.Action} (hall : ∀ h ∈ w.requests, Named h)
    (hstep : Requests.step lib p w a w') : ∀ h ∈ w'.requests, Named h := by
  obtain ⟨q, nowMs, rfl, rfl⟩ | ⟨i, overflow, h, route, rfl, ⟨hi, hstage, -⟩, rfl⟩ |
    ⟨i, m, signal, h, st, rfl, ⟨hi, -, hst⟩, rfl⟩ | ⟨r, status, rfl, rfl⟩ | ⟨buckets, rfl, rfl⟩ :=
    step_cases hstep
  · intro h hmem
    obtain hmem | rfl := (List.mem_append.mp hmem).imp_right List.mem_singleton.mp
    · exact hall h hmem
    · obtain ⟨-, he⟩ | ⟨-, ⟨-, he⟩ | ⟨route, -, he⟩⟩ := handle_cases lib p q
      all_goals simp [Named, he]
  · exact forall_mem_move hall (by simp [Named, Handled.move, scripted, hstage])
  · exact forall_mem_move hall (resume_named (hall h (List.mem_of_getElem? hi)) hst)
  · exact hall
  · exact hall

theorem reaches_gated {fleet : Fleet} {buckets : Dict String TokenBucket.Bucket} {shared : Shared}
    (h : Reaches (Requests.step lib p) (Requests.start fleet ⟨buckets, ⟨shared, .new limits⟩⟩) w) :
    ∃ s, Reaches Gates.step (init limits) s ∧ Refines w s ∧ Accounted limits s ∧
      ∀ h ∈ w.requests, Named h := by
  refine reaches_of_simulation (R := fun w s => Refines w s ∧ Accounted limits s ∧
    ∀ h ∈ w.requests, Named h) ?_ h
    ⟨⟨rfl, .refl _, by simp [Requests.start]⟩, init_accounted limits, by simp [Requests.start]⟩
  rintro w a w' s ⟨hR, hs, hn⟩ hstep
  obtain ⟨t, ht, hR'⟩ := step_refines hR hs hstep
  exact ⟨t, ht, hR', ht.invariant step_accounted hs, step_named hn hstep⟩

/-- Whatever the pipeline does with its requests, its gates are driven as a system of gates. -/
theorem pipeline_refines_gates {lib : StringLibrary} {p : GatewayPipeline} {fleet : Fleet}
    {buckets : Dict String TokenBucket.Bucket} {shared : Shared} {limits : ConcurrencyLimits}
    {w : World}
    (h : Reaches (Requests.step lib p) (Requests.start fleet ⟨buckets, ⟨shared, .new limits⟩⟩) w) :
    ∃ s, Reaches Gates.step (init limits) s ∧ Refines w s := by
  obtain ⟨s, hs, hR, -⟩ := reaches_gated h
  exact ⟨s, hs, hR⟩

theorem pipeline_refines_gates_users : ∃ w s,
    Reaches (Requests.step posix users) (Requests.start usersFleet idleBacking) w ∧
    (gateRequests w).length = 2 ∧ Reaches Gates.step (init {}) s ∧ Refines w s := by
  obtain ⟨w, hw, hc⟩ := Reaches.of_check (Requests.next posix users)
    (fun w => (gateRequests w).length = 2) (Requests.start usersFleet idleBacking)
    (forwarded 0 99 ++ forwarded 1 98) (by decide +kernel)
  obtain ⟨s, hs, hR⟩ := pipeline_refines_gates hw
  exact ⟨w, s, hw, of_decide_eq_true hc, hs, hR⟩

/-- The request is in its dispatch, behind the gate of that name. -/
def dispatchingBehind (l : Level) (n : String) (h : Handled) : Bool :=
  match h.stage with
  | .dispatching route _ _ => n = gateName (idsOf h.inbound route) l
  | _ => false

theorem dispatching_le_holders (hR : Refines w s) (hs : Accounted limits s)
    (hn : ∀ h ∈ w.requests, Named h) (l : Level) (n : String) :
    w.requests.countP (dispatchingBehind l n) ≤ (gateRequests w).countP (holds l n) := by
  rw [gateRequests, List.countP_filterMap]
  refine List.countP_mono_left (fun h hmem hd => ?_)
  cases hstage : h.stage with
  | dispatching route r c =>
    have hids : r.ids = idsOf h.inbound route := by simpa only [Named, hstage] using hn h hmem
    have hp := hR.inside h hmem route r c hstage
    obtain ⟨hr, -⟩ := hR.mem_present hmem (r := r) (by rw [hstage]; rfl)
    have hheld : l ∈ r.held := by
      rw [hs.nested r hr, hp]
      cases l <;> simp [scope]
    simpa [dispatchingBehind, hstage, gateRequest, holds, hids, hheld] using hd
  | limiting | acquiring | done | failed => simp [dispatchingBehind, hstage] at hd

/-- The bulkheads of the whole gateway: no gate leaks a permit or admits too many, no more requests
are in dispatch behind a gate than its limit, and the gates are idle when nobody is inside. -/
theorem bulkheads_hold {lib : StringLibrary} {p : GatewayPipeline} {fleet : Fleet}
    {buckets : Dict String TokenBucket.Bucket} {shared : Shared} {limits : ConcurrencyLimits}
    {w : World}
    (h : Reaches (Requests.step lib p) (Requests.start fleet ⟨buckets, ⟨shared, .new limits⟩⟩) w) :
    (∀ l n g, w.backing.gateway.concurrency.gate? l n = some g → g.limit = limitOf limits l ∧
      g.inFlight = (gateRequests w).countP (holds l n) ∧
      g.permits + (gateRequests w).countP (owns l n) + (gateRequests w).countP (holds l n) =
        g.limit) ∧
    (∀ l n, w.requests.countP (dispatchingBehind l n) ≤ limitOf limits l) ∧
    ((∀ h ∈ w.requests, gateRequest h.stage = none) →
      ∀ l n g, w.backing.gateway.concurrency.gate? l n = some g →
        g.inFlight = 0 ∧ g.permits = g.limit) := by
  obtain ⟨s, -, hR, hs, hn⟩ := reaches_gated h
  have hgates : ∀ l n g, w.backing.gateway.concurrency.gate? l n = some g →
      g.limit = limitOf limits l ∧ g.inFlight = (gateRequests w).countP (holds l n) ∧
      g.permits + (gateRequests w).countP (owns l n) + (gateRequests w).countP (holds l n) =
        g.limit := by
    intro l n g hg
    rw [← hR.manager] at hg
    rw [← holders_eq hR hs, ← owners_eq hR]
    exact ⟨hs.limit l n g hg, hs.inFlight l n g hg, hs.permits l n g hg⟩
  refine ⟨hgates, fun l n => ?_, fun hidle l n g hg => idle_gates hR hs hidle hg⟩
  refine (dispatching_le_holders hR hs hn l n).trans ?_
  cases hg : w.backing.gateway.concurrency.gate? l n with
  | some g =>
    obtain ⟨hlimit, -, hpermits⟩ := hgates l n g hg
    omega
  | none =>
    -- a gate that does not exist has no holders: each request has registered its own
    rw [← holders_eq hR hs, holders_eq_zero (fun r hr he => ?_)]
    · exact Nat.zero_le _
    · have hsome := hs.registered r hr l
      rw [hR.manager, ← he, hg] at hsome
      exact absurd hsome (by simp)

theorem bulkheads_hold_users : ∃ w,
    Reaches (Requests.step posix users) (Requests.start usersFleet idleBacking) w ∧
    w.requests.countP (dispatchingBehind .backend "backend:users-svc") = 2 ∧
    w.requests.countP (dispatchingBehind .backend "backend:users-svc") ≤ 100 := by
  obtain ⟨w, hw, hc⟩ := Reaches.of_check (Requests.next posix users)
    (fun w => w.requests.countP (dispatchingBehind .backend "backend:users-svc") = 2)
    (Requests.start usersFleet idleBacking) (forwarded 0 99 ++ forwarded 1 98) (by decide +kernel)
  exact ⟨w, hw, of_decide_eq_true hc, (bulkheads_hold hw).2.1 .backend "backend:users-svc"⟩

end Sentinel.GatedPipeline
