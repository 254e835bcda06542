import Sentinel.StageGating
import Mathlib.Data.List.Perm.Subperm

namespace Sentinel.Registries

open Runs Text Breaker Router Limiter Selection GateMoves
open Dispatch hiding admitted
open Pipeline hiding next step start
open Gates hiding Event next step
open Requests
open PathFidelity (users)
open StageGating (forwarded idleBacking)

/-- The dictionaries that a gateway fills as requests come in. -/
inductive Registry
  | tenantGates
  | routeGates
  | backendGates
  | breakers
  | cycles
  deriving DecidableEq

def keys (g : Gateway) : Registry → List String
  | .tenantGates => g.concurrency.tenantGates.keys
  | .routeGates => g.concurrency.routeGates.keys
  | .backendGates => g.concurrency.backendGates.keys
  | .breakers => g.shared.breakers.keys
  | .cycles => g.shared.selector.cycles.keys

def keyOf (route : RouteDefinition) : Registry → String
  | .tenantGates => "tenant:" ++ route.tenantId
  | .routeGates => "route:" ++ route.id
  | .backendGates => "backend:" ++ route.backendServiceId
  | .breakers | .cycles => route.backendServiceId

section

variable {sh sh' sh'' : Shared} {serviceId : String}

/-- Breakers and cycles have at most the entry of one service in addition. -/
structure Extends (serviceId : String) (sh sh' : Shared) : Prop where
  breakers : ∀ k ∈ sh'.breakers.keys, k ∈ sh.breakers.keys ∨ k = serviceId
  cycles : ∀ k ∈ sh'.selector.cycles.keys, k ∈ sh.selector.cycles.keys ∨ k = serviceId

theorem Extends.refl (serviceId : String) (sh : Shared) : Extends serviceId sh sh :=
  ⟨fun _ => .inl, fun _ => .inl⟩

theorem Extends.trans (h : Extends serviceId sh sh') (h' : Extends serviceId sh' sh'') :
    Extends serviceId sh sh'' :=
  ⟨fun k hk => (h'.breakers k hk).elim (h.breakers k) .inr,
    fun k hk => (h'.cycles k hk).elim (h.cycles k) .inr⟩

theorem setBreaker_extends (sh : Shared) (serviceId : String) (b : CircuitBreaker) :
    Extends serviceId sh (sh.setBreaker serviceId b) :=
  ⟨fun _ hk => (Dict.mem_keys_set.mp hk).symm, fun _ => .inl⟩

theorem recordFailure_extends (sh : Shared) (serviceId : String) (clock : ℚ) :
    Extends serviceId sh (sh.recordFailure serviceId clock).1 :=
  setBreaker_extends sh serviceId _

variable (lib : StringLibrary) (d : Call) (m : Moment) (l : Locals) (sh)

theorem chosen_extends : Extends d.serviceId sh (Dispatch.admitted d m sh (chosen d m sh).1) := by
  refine ⟨(setBreaker_extends sh d.serviceId _).breakers, fun k hk => ?_⟩
  obtain ⟨-, h⟩ | ⟨-, c, -, h⟩ := select_cases m.fleet sh.selector d.serviceId m.shuffle
    ((m.fleet.byService.get? d.serviceId).getD [])
  · left
    rwa [Dispatch.admitted, chosen, h] at hk
  · rw [Dispatch.admitted, chosen, h] at hk
    exact (Dict.mem_keys_set.mp hk).symm

theorem attempt_extends : Extends d.serviceId sh (attempt d m l sh).shared := by
  obtain ⟨-, h⟩ | ⟨e, -, h⟩ | ⟨-, sel, clock, r, ⟨rfl, -⟩, h⟩ | ⟨-, sel, ref, ⟨-, hc, -⟩, h⟩ :=
    attempt_cases d m l sh
  · rw [h]
    exact .refl _ sh
  · rw [h]
    exact setBreaker_extends sh d.serviceId _
  · rw [h]
    exact (chosen_extends sh d m).trans (recordFailure_extends _ _ clock)
  · have hsel : sel = (chosen d m sh).1 := by rw [hc]
    rw [h, hsel]
    exact chosen_extends sh d m

theorem failed_extends (o : Outcome) (kind : Retry.FailureKind) :
    Extends d.serviceId sh (failed lib d m l o kind sh).shared := by
  have hfail := recordFailure_extends sh d.serviceId (m.clock 0)
  obtain ⟨e, h⟩ | h | ⟨b, -, -, -, -, h⟩ := failed_cases lib d m l sh o kind
  · rw [h]
    exact hfail
  · rw [h]
    exact hfail.trans (setBreaker_extends _ _ _)
  · rw [h]
    exact hfail.trans (setBreaker_extends _ _ _)

theorem received_extends (o : Outcome) :
    Extends d.serviceId sh (received lib d m l o sh).shared := by
  obtain ⟨r, -, -, h⟩ | ⟨-, -, l', kind, -, h⟩ | ⟨-, c, -, h⟩ := received_cases lib d m l sh o
  · rw [h]
    exact setBreaker_extends sh d.serviceId _
  · rw [h]
    exact failed_extends sh lib d m l' o kind
  · rw [h]
    exact .refl _ sh

theorem enter_extends : Extends d.serviceId sh (enter d m sh).shared :=
  (setBreaker_extends sh d.serviceId _).trans (attempt_extends _ d m _)

theorem resume_extends {c : Control} {signal : Signal} {seg : Segment}
    (h : resume lib d m sh c signal = some seg) : Extends d.serviceId sh seg.shared := by
  obtain ⟨l, o, -, -, rfl⟩ | ⟨l, -, -, rfl⟩ | ⟨l, -, rfl⟩ := resume_cases lib d m sh h
  · exact received_extends sh lib d m l o
  · exact attempt_extends sh d m l
  · exact .refl _ sh

end

section

variable {m m' m'' : ConcurrencyManager}

def SameGates (m m' : ConcurrencyManager) : Prop :=
  ∀ l n, (m'.gate? l n).isSome = (m.gate? l n).isSome

theorem SameGates.trans (h : SameGates m m') (h' : SameGates m' m'') : SameGates m m'' :=
  fun l n => (h' l n).trans (h l n)

theorem update_sameGates (m : ConcurrencyManager)
    (f : BoundedConcurrencyGate → BoundedConcurrencyGate) (l : Level) (n : String) :
    SameGates m (m.update f l n) := by
  intro l' n'
  rw [gate?_update, Option.isSome_map]

theorem unwind_sameGates (ls : List Level) (exit : Exit) (m : ConcurrencyManager) (r : Request) :
    SameGates m (unwind ls exit m r).1 := by
  induction ls with
  | nil => exact fun _ _ => rfl
  | cons l ls ih => exact ih.trans (update_sameGates (unwind ls exit m r).1 _ l _)

theorem progress_sameGates {r r' : Request} {w : Wake} (h : progress m r w = some (m', r')) :
    SameGates m m' := by
  obtain ⟨l, g, -, -, -, rfl, -⟩ | ⟨l, -, rfl, -⟩ | ⟨l, exit, -, he⟩ | ⟨exit, -, he⟩ :=
    progress_cases h
  · exact update_sameGates m _ l _
  · exact update_sameGates m _ l _
  · have hm' := congrArg Prod.fst he
    simp only at hm'
    rw [hm']
    exact (update_sameGates m _ l _).trans (unwind_sameGates _ exit _ r)
  · have hm' := congrArg Prod.fst he
    simp only at hm'
    rw [hm']
    exact unwind_sameGates _ exit m r

theorem inside_sameGates (route : RouteDefinition) (r : Request) (m : ConcurrencyManager)
    (seg : Segment) : SameGates m (inside route r m seg).gateway.concurrency := by
  unfold inside
  split
  · exact unwind_sameGates r.held .completed m r
  · exact unwind_sameGates r.held .raised m r
  · exact fun _ _ => rfl

end

section

variable {g g' : Gateway} {route : RouteDefinition}

def Grows (route : RouteDefinition) (g g' : Gateway) : Prop :=
  ∀ reg, ∀ k ∈ keys g' reg, k ∈ keys g reg ∨ k = keyOf route reg

theorem grows_of_sameGates (hm : SameGates g.concurrency g'.concurrency)
    (hs : Extends route.backendServiceId g.shared g'.shared) : Grows route g g' := by
  intro reg k hk
  cases reg with
  | breakers => exact hs.breakers k hk
  | cycles => exact hs.cycles k hk
  | tenantGates =>
    have hgate := hm .tenant k
    exact .inl (Dict.mem_keys_iff.mpr (hgate ▸ Dict.mem_keys_iff.mp hk))
  | routeGates =>
    have hgate := hm .route k
    exact .inl (Dict.mem_keys_iff.mpr (hgate ▸ Dict.mem_keys_iff.mp hk))
  | backendGates =>
    have hgate := hm .backend k
    exact .inl (Dict.mem_keys_iff.mpr (hgate ▸ Dict.mem_keys_iff.mp hk))

theorem getOrCreate_keys {m : ConcurrencyManager} {d : Dict String BoundedConcurrencyGate}
    {key k : String} {limit : ℕ} (hk : k ∈ (m.getOrCreate d key limit).keys) :
    k ∈ d.keys ∨ k = key := by
  unfold ConcurrencyManager.getOrCreate at hk
  split at hk
  · exact .inl hk
  · exact (Dict.mem_keys_set.mp hk).symm

theorem register_grows {q : Inbound} (htenant : route.tenantId = q.tenantId) (g : Gateway) :
    Grows route g ⟨g.shared, g.concurrency.register (idsOf q route)⟩ := by
  intro reg k hk
  cases reg with
  | tenantGates =>
    rw [keyOf, htenant]
    exact getOrCreate_keys hk
  | routeGates | backendGates => exact getOrCreate_keys hk
  | breakers | cycles => exact .inl hk

end

def Routed (routes : List RouteDefinition) (q : Inbound) : Stage → Prop
  | .limiting route | .acquiring route _ | .dispatching route _ _ =>
    route ∈ routes ∧ route.tenantId = q.tenantId
  | .done _ | .failed _ => True

section

variable {lib : StringLibrary} {p : GatewayPipeline} {routes : List RouteDefinition}

theorem inside_routed {q : Inbound} {route : RouteDefinition} {r : Request}
    {m : ConcurrencyManager} {seg : Segment} (h : route ∈ routes ∧ route.tenantId = q.tenantId) :
    Routed routes q (inside route r m seg).stage := by
  obtain ⟨_, _, -, he⟩ | ⟨_, _, -, he⟩ | he := inside_cases route r m seg
  · rw [he]
    trivial
  · rw [he]
    trivial
  · rw [he]
    exact h

theorem inside_grows {route : RouteDefinition} {r : Request} {seg : Segment} {g : Gateway}
    {concurrency : ConcurrencyManager} (hm : SameGates g.concurrency concurrency)
    (hs : Extends route.backendServiceId g.shared seg.shared) :
    Grows route g (inside route r concurrency seg).gateway := by
  apply grows_of_sameGates (hm.trans (inside_sameGates route r concurrency seg))
  rw [inside_shared]
  exact hs

theorem proceed_grows {q : Inbound} {m : Moment} {g : Gateway} {stage : Stage}
    {signal : Resumption} {s : Stretch} (hr : Routed routes q stage)
    (h : proceed lib p q m g stage signal = some s) :
    Routed routes q s.stage ∧ ∃ route ∈ routes, Grows route g s.gateway := by
  have hsame : ∀ route, Grows route g g := fun _ _ _ => .inl
  obtain ⟨route, reply, ⟨rfl, -⟩, ⟨-, rfl⟩ | ⟨-, rfl⟩⟩ | ⟨route, rfl, rfl⟩ |
    ⟨route, r, wake, ⟨rfl, -⟩, hgates⟩ | ⟨route, r, c, signal', seg, rfl, hseg, rfl⟩ :=
    proceed_cases h
  · exact ⟨trivial, route, hr.1, hsame route⟩
  · exact ⟨hr, route, hr.1, register_grows hr.2 g⟩
  · exact ⟨trivial, route, hr.1, hsame route⟩
  · obtain ⟨concurrency, r', hprogress, hcases⟩ := throughGates_cases hgates
    have hm := progress_sameGates hprogress
    have hkept : Grows route g ⟨g.shared, concurrency⟩ := grows_of_sameGates hm (.refl _ _)
    obtain rfl | ⟨-, rfl⟩ | ⟨scope, -, rfl⟩ | rfl := hcases
    · exact ⟨hr, route, hr.1, hkept⟩
    · exact ⟨inside_routed hr, route, hr.1,
        inside_grows hm (enter_extends g.shared (callOf p q route) m)⟩
    · exact ⟨trivial, route, hr.1, hkept⟩
    · exact ⟨trivial, route, hr.1, hkept⟩
  · exact ⟨inside_routed hr, route, hr.1,
      inside_grows (fun _ _ => rfl) (resume_extends g.shared lib (callOf p q route) m hseg)⟩

/-- The state of a run: requests hold configured routes, and the registries have what they had at
the start and entries of configured routes. -/
structure Inv (routes : List RouteDefinition) (initial : Gateway) (w : World) : Prop where
  routed : ∀ h ∈ w.requests, Routed routes h.inbound h.stage
  stems : ∀ reg, ∀ k ∈ keys w.backing.gateway reg,
    k ∈ keys initial reg ∨ ∃ route ∈ routes, k = keyOf route reg

theorem Inv.grow {initial : Gateway} {w : World} {g : Gateway} {route : RouteDefinition}
    (hi : Inv routes initial w) (hroute : route ∈ routes)
    (hg : Grows route w.backing.gateway g) :
    ∀ reg, ∀ k ∈ keys g reg, k ∈ keys initial reg ∨ ∃ route ∈ routes, k = keyOf route reg := by
  intro reg k hk
  obtain hold | hnew := hg reg k hk
  · exact hi.stems reg k hold
  · exact .inr ⟨route, hroute, hnew⟩

theorem handle_routed (lib : StringLibrary) (routes : List RouteDefinition) (max : ℤ)
    (instanceId : String) (q : Inbound) :
    Routed routes q (handle lib ⟨.new routes, max, instanceId⟩ q) := by
  obtain ⟨-, he⟩ | ⟨-, ⟨-, he⟩ | ⟨route, hmatch, he⟩⟩ :=
    handle_cases lib ⟨.new routes, max, instanceId⟩ q
  · rw [he]
    trivial
  · rw [he]
    trivial
  · rw [he]
    obtain ⟨hmem, -, htenant⟩ := RouteMatcher.match_new hmatch
    exact ⟨hmem, htenant⟩

theorem inv_step {max : ℤ} {instanceId : String} {initial : Gateway} {w w' : World} {a : Action}
    (hi : Inv routes initial w) (hstep : step lib ⟨.new routes, max, instanceId⟩ w a w') :
    Inv routes initial w' := by
  obtain ⟨q, nowMs, rfl, rfl⟩ | ⟨i, overflow, h, route, rfl, ⟨hget, hstage, -⟩, rfl⟩ |
    ⟨i, m, signal, h, s, rfl, ⟨hget, -, hs⟩, rfl⟩ | ⟨r, status, rfl, rfl⟩ |
    ⟨buckets, rfl, rfl⟩ := step_cases hstep
  · refine ⟨fun h hmem => ?_, hi.stems⟩
    obtain hmem | hmem := List.mem_append.mp hmem
    · exact hi.routed h hmem
    · rw [List.mem_singleton.mp hmem]
      exact handle_routed lib routes max instanceId q
  · exact ⟨forall_mem_move hi.routed (hi.routed h (List.mem_of_getElem? hget)), hi.stems⟩
  · obtain ⟨hrouted, route, hroute, hgrows⟩ :=
      proceed_grows (hi.routed h (List.mem_of_getElem? hget)) hs
    exact ⟨forall_mem_move hi.routed hrouted, hi.grow hroute hgrows⟩
  · exact ⟨hi.routed, hi.stems⟩
  · exact ⟨hi.routed, hi.stems⟩

end

theorem keys_nodup (g : Gateway) (reg : Registry) : (keys g reg).Nodup := by
  cases reg <;> exact Dict.nodup _

/-- Whatever clients send, a key that a registry gains belongs to a configured route, and no
registry gains more entries than there are routes. -/
theorem registries_bounded (lib : StringLibrary) (routes : List RouteDefinition)
    (maxBodySizeBytes : ℤ) (instanceId : String) (fleet : Fleet) (backing : Backing) (w : World)
    (hrun : Reaches (step lib ⟨.new routes, maxBodySizeBytes, instanceId⟩) (start fleet backing) w)
    (reg : Registry) :
    (∀ k ∈ keys w.backing.gateway reg, k ∉ keys backing.gateway reg →
      ∃ route ∈ routes, k = keyOf route reg) ∧
    ((keys w.backing.gateway reg).filter (fun k => k ∉ keys backing.gateway reg)).length ≤
      routes.length := by
  have hi : Inv routes backing.gateway w := hrun.invariant (fun w a w' => inv_step)
    ⟨by simp [start], fun reg k hk => .inl hk⟩
  have hnew : ∀ k ∈ keys w.backing.gateway reg, k ∉ keys backing.gateway reg →
      ∃ route ∈ routes, k = keyOf route reg :=
    fun k hk hnot => (hi.stems reg k hk).resolve_left hnot
  refine ⟨hnew, ?_⟩
  have hsub : (keys w.backing.gateway reg).filter (fun k => k ∉ keys backing.gateway reg) ⊆
      routes.map (fun route => keyOf route reg) := by
    intro k hk
    obtain ⟨hmem, hnot⟩ := List.mem_filter.mp hk
    obtain ⟨route, hroute, rfl⟩ := hnew k hmem (of_decide_eq_true hnot)
    exact List.mem_map_of_mem hroute
  have hnodup := (keys_nodup w.backing.gateway reg).filter (fun k => k ∉ keys backing.gateway reg)
  simpa using (hnodup.subperm hsub).length_le

theorem one_tenant_gate : ∃ w,
    Reaches (step posix users) (start usersFleet idleBacking) w ∧
      keys w.backing.gateway .tenantGates = ["tenant:acme"] ∧
      ((keys w.backing.gateway .tenantGates).filter
        (fun k => k ∉ keys idleBacking.gateway .tenantGates)).length ≤ 1 := by
  obtain ⟨w, hw, hc⟩ := Reaches.of_check (Requests.next posix users)
    (fun w => keys w.backing.gateway .tenantGates = ["tenant:acme"])
    (start usersFleet idleBacking) (forwarded 0 99) (by decide +kernel)
  exact ⟨w, hw, of_decide_eq_true hc, (registries_bounded posix [usersRoute] 1048576 "sentinel-1"
    usersFleet idleBacking w hw .tenantGates).2⟩

end Sentinel.Registries
