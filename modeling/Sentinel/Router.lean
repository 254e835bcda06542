import Sentinel.Dict
import Sentinel.Text
import Mathlib.Algebra.Order.Ring.Int
import Mathlib.Data.List.Perm.Basic

namespace Sentinel.Router

open Text

inductive InstanceStatus
  | healthy
  | unhealthy
  | draining
  | unknown
  deriving DecidableEq

structure BackendInstance where
  id : String
  host : String
  port : ℤ
  weight : ℤ := 1
  status : InstanceStatus := .unknown
  failureCount : ℤ := 0
  deriving DecidableEq

def BackendInstance.url (i : BackendInstance) : String :=
  "http://" ++ i.host ++ ":" ++ toString i.port

def BackendInstance.isRoutable (i : BackendInstance) : Bool := i.status = .healthy

structure RouteDefinition where
  id : String
  tenantId : String
  name : String
  pathPattern : String
  httpMethods : List String
  backendServiceId : String
  timeoutMs : ℤ := 2000
  priority : String := "NORMAL"
  enabled : Bool := true
  deriving DecidableEq

structure RouteMatcher where
  byTenant : Dict String (List RouteDefinition)

def RouteMatcher.new (routes : List RouteDefinition) : RouteMatcher :=
  ⟨routes.foldl (fun d r => d.set r.tenantId ((d.get? r.tenantId).getD [] ++ [r])) .empty⟩

/-- `none` is `RouteNotFoundError`. -/
def RouteMatcher.match (lib : StringLibrary) (m : RouteMatcher) (tenantId method path : String) :
    Option RouteDefinition :=
  let candidates := (m.byTenant.get? tenantId).getD []
  candidates.find? (fun route =>
    route.enabled && (route.httpMethods.map lib.upper).contains (lib.upper method) &&
      lib.fnmatch path route.pathPattern)

theorem RouteMatcher.candidates_new (routes : List RouteDefinition) (tenantId : String) :
    ((RouteMatcher.new routes).byTenant.get? tenantId).getD [] =
      routes.filter (fun r => r.tenantId = tenantId) := by
  induction routes using List.reverseRecOn with
  | nil => rfl
  | append_singleton routes r ih =>
    simp only [RouteMatcher.new, List.foldl_append, List.foldl_cons, List.foldl_nil,
      Dict.get?_set, List.filter_append] at ih ⊢
    by_cases h : r.tenantId = tenantId
    · subst h
      simp [ih]
    · simp [h, Ne.symm h, ih]

theorem RouteMatcher.match_new {lib : StringLibrary} {routes : List RouteDefinition}
    {tenantId method path : String} {route : RouteDefinition}
    (h : (RouteMatcher.new routes).match lib tenantId method path = some route) :
    route ∈ routes ∧ route.enabled = true ∧ route.tenantId = tenantId := by
  unfold RouteMatcher.match at h
  rw [RouteMatcher.candidates_new] at h
  have hmem := List.mem_filter.mp (List.mem_of_find?_eq_some h)
  have henabled := List.find?_some h
  simp only [Bool.and_eq_true] at henabled
  exact ⟨hmem.1, henabled.1.1, of_decide_eq_true hmem.2⟩

/-- Instances are objects that the selector, the health checker and the configuration share: a
reference stays the same while the instance behind it changes. -/
abbrev Ref := ℕ

/-- The instances behind the references and `backend_instances_by_service`, at one moment. -/
structure Fleet where
  get : Ref → BackendInstance
  byService : Dict String (List Ref)

/-- `itertools.cycle` over a list that is not empty: `pos` is the next item. -/
structure Cycle where
  items : List Ref
  pos : Fin items.length

namespace Cycle

def current (c : Cycle) : Ref := c.items.get c.pos

def advance (c : Cycle) : Cycle :=
  { c with pos := ⟨(c.pos + 1) % c.items.length, Nat.mod_lt _ c.pos.pos⟩ }

def start (items : List Ref) (h : items ≠ []) : Cycle :=
  ⟨items, ⟨0, List.length_pos_iff.mpr h⟩⟩

end Cycle

/-- `_cycles` and `_last_seen_signature` are written together and are kept as one entry. -/
structure Entry where
  signature : List (String × ℤ)
  cycle : Cycle

structure WeightedRoundRobinSelector where
  cycles : Dict String Entry := .empty

structure Shuffle where
  order : List Ref → List Ref
  perm : ∀ l, (order l).Perm l

def expanded (fleet : Fleet) (routable : List Ref) : List Ref :=
  routable.flatMap (fun r => List.replicate (max 1 (fleet.get r).weight).toNat r)

theorem expanded_ne_nil (fleet : Fleet) {routable : List Ref} (h : routable ≠ []) :
    expanded fleet routable ≠ [] := by
  obtain ⟨r, rs, rfl⟩ := List.exists_cons_of_ne_nil h
  have hw : (max 1 (fleet.get r).weight).toNat ≠ 0 := by
    have := le_max_left 1 (fleet.get r).weight
    omega
  simp [expanded, hw]

theorem Shuffle.order_ne_nil (s : Shuffle) {l : List Ref} (h : l ≠ []) : s.order l ≠ [] :=
  fun he => h (List.nil_perm.mp (he ▸ s.perm l))

/-- `none` is `NoHealthyBackendError`. -/
def WeightedRoundRobinSelector.select (fleet : Fleet) (shuffle : Shuffle)
    (s : WeightedRoundRobinSelector) (serviceId : String) (instances : List Ref) :
    WeightedRoundRobinSelector × Option Ref :=
  let routable := instances.filter (fun r => (fleet.get r).isRoutable)
  if h : routable = [] then (s, none)
  else
    let signature := routable.map (fun r => ((fleet.get r).id, (fleet.get r).weight))
    let rebuilt := Cycle.start (shuffle.order (expanded fleet routable))
      (shuffle.order_ne_nil (expanded_ne_nil fleet h))
    let cycle := match s.cycles.get? serviceId with
      | some e => if e.signature = signature then e.cycle else rebuilt
      | none => rebuilt
    (⟨s.cycles.set serviceId ⟨signature, cycle.advance⟩⟩, some cycle.current)

end Sentinel.Router
