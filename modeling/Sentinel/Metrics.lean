import Sentinel.MetricLabels
import Sentinel.Tally

namespace Sentinel.Metrics

open Runs Text Router Dispatch Proxy Tally
open Pipeline hiding next step start

/-- The endpoint together with the gauge `REQUESTS_IN_FLIGHT`. -/
structure Monitored where
  endpoint : Endpoint
  inFlight : ℤ := 0

def settled : Stage → Bool
  | .done _ | .failed _ => true
  | _ => false

/-- The `finally` block around `handle`: it runs however `handle` ends. -/
def release (world : Requests.World) (i : ℕ) (inFlight : ℤ) : ℤ :=
  if world.requests[i]?.any (fun h => settled h.stage) then inFlight - 1 else inFlight

section

variable (http : HttpLibrary) (lib : StringLibrary) (p : GatewayPipeline) (settings : Settings)

def next (s : Monitored) (a : Proxy.Action) : Option Monitored :=
  (Proxy.next http lib p settings s.endpoint a).map (fun t =>
    ⟨t, match a with
      | .request _ _ _ => release t.world s.endpoint.world.requests.length (s.inFlight + 1)
      | .resume i _ _ => release t.world i s.inFlight
      | .script _ _ | .write _ _ | .redis _ => s.inFlight⟩)

def step (s : Monitored) (a : Proxy.Action) (t : Monitored) : Prop :=
  next http lib p settings s a = some t

end

def start (fleet : Fleet) (backing : Requests.Backing) : Monitored :=
  { endpoint := Proxy.start fleet backing }

def fullPathOf (h : Requests.Handled) : String := String.ofList (h.inbound.path.toList.drop 1)

/-- The labels under which a request is to be counted: none unless `handle` returned. -/
def counted (h : Requests.Handled) : Option (String × String) :=
  match h.stage with
  | .done result => some (routeLabel (fullPathOf h), toString result.statusCode)
  | _ => none

def running (world : Requests.World) : ℕ := world.requests.countP (fun h => !settled h.stage)

structure Truthful (s : Endpoint) (inFlight : ℤ) : Prop where
  paths : s.paths = s.world.requests.map fullPathOf
  totals : s.totals.Perm (s.world.requests.filterMap counted)
  durations : s.durations = s.totals.map Prod.fst
  gauge : inFlight = running s.world

section

variable {s : Endpoint} {world : Requests.World} {i : ℕ} {h : Requests.Handled}

theorem record_world (s : Endpoint) (i : ℕ) (world : Requests.World) :
    (s.record i world).world = world := by
  unfold Endpoint.record
  split <;> rfl

theorem record_labels (hi : world.requests[i]? = some h)
    (hpath : s.paths[i]? = some (fullPathOf h)) : (s.record i world).paths = s.paths ∧
      (s.record i world).totals = s.totals ++ (counted h).toList ∧
      (s.record i world).durations = s.durations ++ (counted h).toList.map Prod.fst := by
  cases hstage : h.stage with
  | done result => simp [Endpoint.record, hi, hpath, hstage, counted]
  | limiting | acquiring | dispatching | failed => simp [Endpoint.record, hi, hstage, counted]

theorem counted_of_not_settled (hs : settled h.stage = false) : counted h = none := by
  cases hstage : h.stage with
  | done result => simp [settled, hstage] at hs
  | limiting | acquiring | dispatching | failed => simp [counted, hstage]

theorem release_eq (hi : world.requests[i]? = some h) (inFlight : ℤ) :
    release world i inFlight = inFlight - (settled h.stage).toNat := by
  cases hs : settled h.stage <;> simp [release, hi, hs]

end

theorem counts_set {world : Requests.World} {i : ℕ} {h h' : Requests.Handled}
    (hi : world.requests[i]? = some h) (hold : settled h.stage = false) :
    ((world.requests.set i h').filterMap counted).Perm
        (world.requests.filterMap counted ++ (counted h').toList) ∧
      (world.requests.set i h').countP (fun h => !settled h.stage) + (settled h'.stage).toNat =
        running world := by
  constructor
  · have hperm := filterMap_set_perm hi h' counted
    rw [counted_of_not_settled hold] at hperm
    exact hperm.trans List.perm_append_comm
  · have hcount := countP_set_add hi h' (fun h => !settled h.stage)
    cases hnew : settled h'.stage
    all_goals
      simp only [hold, hnew, Bool.not_false, Bool.not_true, Bool.toNat_true,
        Bool.toNat_false] at hcount ⊢
      simp only [running]
      omega

section

variable {s : Endpoint} {inFlight : ℤ} {world : Requests.World}

theorem Truthful.advance (ht : Truthful s inFlight) {i : ℕ} {h h' : Requests.Handled}
    (hi : s.world.requests[i]? = some h) (hold : settled h.stage = false)
    (hinbound : h'.inbound = h.inbound)
    (hworld : world.requests = s.world.requests.set i h') :
    Truthful (s.record i world) (release (s.record i world).world i inFlight) := by
  obtain ⟨hlt, -⟩ := List.getElem?_eq_some_iff.mp hi
  have hi' : world.requests[i]? = some h' := by rw [hworld, List.getElem?_set_self hlt]
  have hsame : fullPathOf h' = fullPathOf h := by rw [fullPathOf, hinbound, fullPathOf]
  have hpath : s.paths[i]? = some (fullPathOf h') := by
    rw [ht.paths, List.getElem?_map, hi, hsame]
    rfl
  obtain ⟨hpaths, htotals, hdurations⟩ := record_labels hi' hpath
  have hw := record_world s i world
  obtain ⟨hperm, hcount⟩ := counts_set hi hold
  refine ⟨?_, ?_, ?_, ?_⟩
  · rw [hpaths, hw, hworld, map_set_of_eq hi hsame, ht.paths]
  · rw [htotals, hw, hworld]
    exact (ht.totals.append_right _).trans hperm.symm
  · rw [hdurations, htotals, ht.durations, List.map_append]
  · have hrunning := ht.gauge
    rw [hw, release_eq hi', running, hworld]
    omega

theorem Truthful.request (ht : Truthful s inFlight) {h : Requests.Handled}
    (hworld : world.requests = s.world.requests ++ [h]) {paths : List String}
    (hpaths : paths = s.paths ++ [fullPathOf h]) :
    Truthful (Endpoint.record { s with paths } s.world.requests.length world)
      (release (Endpoint.record { s with paths } s.world.requests.length world).world
        s.world.requests.length (inFlight + 1)) := by
  have hi : world.requests[s.world.requests.length]? = some h := by
    rw [hworld, List.getElem?_concat_length]
  have hlength : s.paths.length = s.world.requests.length := by rw [ht.paths, List.length_map]
  have hpath : ({ s with paths } : Endpoint).paths[s.world.requests.length]? =
      some (fullPathOf h) := by
    simp only [hpaths]
    rw [← hlength, List.getElem?_concat_length]
  obtain ⟨hp, htotals, hdurations⟩ := record_labels hi hpath
  have hw := record_world { s with paths } s.world.requests.length world
  refine ⟨?_, ?_, ?_, ?_⟩
  · rw [hp, hw, hworld, List.map_append, ← ht.paths]
    exact hpaths
  · rw [htotals, hw, hworld, List.filterMap_append]
    refine ht.totals.append (List.Perm.of_eq ?_)
    cases hc : counted h <;> simp [hc]
  · rw [hdurations, htotals, List.map_append]
    exact congrArg (· ++ _) ht.durations
  · have hrunning := ht.gauge
    rw [hw, release_eq hi, running, hworld, List.countP_append]
    simp only [running] at hrunning
    cases hs : settled h.stage <;> simp [hs, hrunning]

end

theorem fullPathOf_inboundOf (http : HttpLibrary) (settings : Settings) (newRequestId : String)
    (r : HttpRequest) {h : Requests.Handled}
    (hin : h.inbound = inboundOf http settings newRequestId r) : fullPathOf h = r.fullPath := by
  simp [fullPathOf, hin, inboundOf]

theorem not_settled_of_proceed {lib : StringLibrary} {p : GatewayPipeline} {q : Inbound}
    {m : Moment} {g : Gateway} {stage : Stage} {signal : Resumption} {st : Stretch}
    (h : proceed lib p q m g stage signal = some st) : settled stage = false := by
  obtain ⟨route, reply, ⟨rfl, -⟩, -⟩ | ⟨route, rfl, -⟩ | ⟨route, r, w, ⟨rfl, -⟩, -⟩ |
    ⟨route, r, c, signal', seg, rfl, -⟩ := proceed_cases h
  all_goals rfl

section

variable {http : HttpLibrary} {lib : StringLibrary} {p : GatewayPipeline} {settings : Settings}

theorem step_truthful (s : Monitored) (a : Proxy.Action) (t : Monitored)
    (ht : Truthful s.endpoint s.inFlight) (h : step http lib p settings s a t) :
    Truthful t.endpoint t.inFlight := by
  cases a with
  | request r newRequestId nowMs =>
    simp only [step, next, Proxy.next, Requests.next, Option.map_some, Option.some.injEq] at h
    subst h
    let q := inboundOf http settings newRequestId r
    let h : Requests.Handled :=
      ⟨q, nowMs, handle lib p q, none, [Requests.arrival lib p s.endpoint.world q]⟩
    have hpath : s.endpoint.paths ++ [r.fullPath] = s.endpoint.paths ++ [fullPathOf h] := by
      rw [fullPathOf_inboundOf http settings newRequestId r (show h.inbound = q from rfl)]
    exact ht.request (show { s.endpoint.world with
      requests := s.endpoint.world.requests ++ [h] }.requests = _ from rfl) hpath
  | script i overflow =>
    obtain ⟨u, hu, rfl⟩ := Option.map_eq_some_iff.mp h
    obtain ⟨world, hworld, rfl⟩ := Option.map_eq_some_iff.mp hu
    obtain ⟨_, _, ha, -⟩ | ⟨i', _, r, route, ha, ⟨hi, hstage, -⟩, rfl⟩ |
      ⟨_, _, _, _, _, ha, -⟩ | ⟨_, _, ha, -⟩ | ⟨_, ha, -⟩ := Requests.step_cases hworld <;> cases ha
    let r' : Requests.Handled := Requests.Handled.move { r with
      pending := some (.of overflow (r.evaluate s.endpoint.world.backing.buckets).2) }
      (Requests.scripted s.endpoint.world r)
    let world := s.endpoint.world.move i { r with
      pending := some (.of overflow (r.evaluate s.endpoint.world.backing.buckets).2) }
      (Requests.scripted s.endpoint.world r)
    have hworld : world.requests = s.endpoint.world.requests.set i r' := rfl
    have hold : settled r.stage = false := by rw [hstage]; rfl
    have hadvance := ht.advance hi hold (show r'.inbound = r.inbound from rfl) hworld
    obtain ⟨hlt, -⟩ := List.getElem?_eq_some_iff.mp hi
    have hi' : world.requests[i]? = some r' := by rw [hworld, List.getElem?_set_self hlt]
    -- the script leaves the request where it awaits the reply, so nothing is released
    have hnew : settled r'.stage = false := hold
    rw [record_world, release_eq hi', hnew, Bool.toNat_false, Nat.cast_zero, sub_zero] at hadvance
    exact hadvance
  | resume i m signal =>
    obtain ⟨u, hu, rfl⟩ := Option.map_eq_some_iff.mp h
    obtain ⟨world, hworld, rfl⟩ := Option.map_eq_some_iff.mp hu
    obtain ⟨_, _, ha, -⟩ | ⟨_, _, _, _, ha, -⟩ | ⟨i', m', signal', r, st, ha, ⟨hi, -, hst⟩, rfl⟩ |
      ⟨_, _, ha, -⟩ | ⟨_, ha, -⟩ := Requests.step_cases hworld <;> cases ha
    let mv := Requests.resumed s.endpoint.world signal st
    exact ht.advance hi (not_settled_of_proceed hst) (show (r.move mv).inbound = r.inbound from rfl)
      (show (s.endpoint.world.move i r mv).requests = _ from rfl)
  | write r status =>
    simp only [step, next, Proxy.next, Requests.next, Option.map_some, Option.some.injEq] at h
    subst h
    exact ⟨ht.paths, ht.totals, ht.durations, ht.gauge⟩
  | redis buckets =>
    simp only [step, next, Proxy.next, Requests.next, Option.map_some, Option.some.injEq] at h
    subst h
    exact ⟨ht.paths, ht.totals, ht.durations, ht.gauge⟩

end

/-- Every request that got an answer is counted once in each metric, under its own path and status,
one that raised in none, and the gauge shows exactly the requests that are still being handled. -/
theorem metrics_truthful {http : HttpLibrary} {lib : StringLibrary} {p : GatewayPipeline}
    {settings : Settings} {fleet : Fleet} {backing : Requests.Backing} {s : Monitored}
    (h : Reaches (step http lib p settings) (start fleet backing) s) :
    s.endpoint.totals.Perm (s.endpoint.world.requests.filterMap counted) ∧
      s.endpoint.durations = s.endpoint.totals.map Prod.fst ∧
      s.inFlight = running s.endpoint.world := by
  have ht := h.invariant (I := fun s => Truthful s.endpoint s.inFlight) step_truthful
    ⟨rfl, .refl _, rfl, rfl⟩
  exact ⟨ht.totals, ht.durations, ht.gauge⟩

def anyone : GatewayPipeline :=
  ⟨RouteMatcher.new [{ usersRoute with tenantId := "default" }], 1048576, "sentinel-1"⟩

def plainGet (fullPath : String) : HttpRequest :=
  { method := "GET", fullPath, headers := [], query := [], body := [], client := none
    accepted := get_mem_proxyMethods }

def mixed : List Proxy.Action :=
  [.request (plainGet "nowhere") "a" 0, .request (plainGet "users/1") "b" 0,
    .request (plainGet "users/2") "c" 0, .resume 1 (instant 0) (.reply none)]

theorem metrics_truthful_mixed : ∃ s,
    Reaches (step starlette posix anyone {}) (start usersFleet ⟨.empty, ⟨fresh, .new {}⟩⟩) s ∧
    s.inFlight = 1 ∧ s.endpoint.totals = [("nowhere", "404"), ("users", "429")] ∧
    s.endpoint.totals.Perm (s.endpoint.world.requests.filterMap counted) := by
  obtain ⟨s, hs, hc⟩ := Reaches.of_check (next starlette posix anyone {})
    (fun s => s.inFlight = 1 && s.endpoint.totals = [("nowhere", "404"), ("users", "429")])
    (start usersFleet ⟨.empty, ⟨fresh, .new {}⟩⟩) mixed (by decide +kernel)
  simp only [Bool.and_eq_true, decide_eq_true_eq] at hc
  exact ⟨s, hs, hc.1, hc.2, (metrics_truthful hs).1⟩

end Sentinel.Metrics
