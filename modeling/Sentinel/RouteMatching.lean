import Sentinel.Router
import Mathlib.Logic.Relation

namespace Sentinel.RouteMatching

open Text Router

structure Serves (lib : StringLibrary) (tenantId method path : String) (r : RouteDefinition) :
    Prop where
  tenant : r.tenantId = tenantId
  enabled : r.enabled = true
  method : ∃ m ∈ r.httpMethods, lib.upper m = lib.upper method
  path : lib.fnmatch path r.pathPattern = true

/-- One change of the configuration of other tenants. -/
inductive Edit (tenantId : String) : List RouteDefinition → List RouteDefinition → Prop
  | insert {r : RouteDefinition} (before after : List RouteDefinition) :
      r.tenantId ≠ tenantId → Edit tenantId (before ++ after) (before ++ r :: after)
  | delete {r : RouteDefinition} (before after : List RouteDefinition) :
      r.tenantId ≠ tenantId → Edit tenantId (before ++ r :: after) (before ++ after)
  | edit {r r' : RouteDefinition} (before after : List RouteDefinition) :
      r.tenantId ≠ tenantId → r'.tenantId ≠ tenantId →
      Edit tenantId (before ++ r :: after) (before ++ r' :: after)
  | move {r : RouteDefinition} (before between after : List RouteDefinition) :
      r.tenantId ≠ tenantId →
      Edit tenantId (before ++ r :: between ++ after) (before ++ between ++ r :: after)
  | moveBack {r : RouteDefinition} (before between after : List RouteDefinition) :
      r.tenantId ≠ tenantId →
      Edit tenantId (before ++ between ++ r :: after) (before ++ r :: between ++ after)

section

variable (lib : StringLibrary) (tenantId method path : String)

/-- The test that the loop of `match` makes, with the tenant that its list is kept under. -/
def serves (r : RouteDefinition) : Bool :=
  r.tenantId = tenantId && (r.enabled &&
    (r.httpMethods.map lib.upper).contains (lib.upper method) && lib.fnmatch path r.pathPattern)

theorem serves_iff {r : RouteDefinition} :
    serves lib tenantId method path r = true ↔ Serves lib tenantId method path r := by
  have hmethod : (r.httpMethods.map lib.upper).contains (lib.upper method) = true ↔
      ∃ m ∈ r.httpMethods, lib.upper m = lib.upper method := by
    rw [List.contains_iff_mem, List.mem_map]
  simp only [serves, Bool.and_eq_true, decide_eq_true_eq, hmethod]
  constructor
  · rintro ⟨htenant, ⟨henabled, hm⟩, hpath⟩
    exact ⟨htenant, henabled, hm, hpath⟩
  · rintro ⟨htenant, henabled, hm, hpath⟩
    exact ⟨htenant, ⟨henabled, hm⟩, hpath⟩

theorem match_new_eq_find? (routes : List RouteDefinition) :
    (RouteMatcher.new routes).match lib tenantId method path =
      routes.find? (serves lib tenantId method path) := by
  unfold RouteMatcher.match
  rw [RouteMatcher.candidates_new, List.find?_filter]
  congr 1
  funext r
  simp [serves]

variable {tenantId}

theorem Edit.filter_eq {routes routes' : List RouteDefinition} (h : Edit tenantId routes routes') :
    routes'.filter (fun r => r.tenantId = tenantId) =
      routes.filter (fun r => r.tenantId = tenantId) := by
  cases h with
  | insert before after hr => simp [hr]
  | delete before after hr => simp [hr]
  | edit before after hr hr' => simp [hr, hr']
  | move before between after hr => simp [hr]
  | moveBack before between after hr => simp [hr]

theorem match_new_of_edits {routes routes' : List RouteDefinition}
    (h : Relation.ReflTransGen (Edit tenantId) routes routes') :
    (RouteMatcher.new routes').match lib tenantId method path =
      (RouteMatcher.new routes).match lib tenantId method path := by
  have hfilter : routes'.filter (fun r => r.tenantId = tenantId) =
      routes.filter (fun r => r.tenantId = tenantId) := by
    induction h with
    | refl => rfl
    | tail _ hedit ih => exact hedit.filter_eq.trans ih
  unfold RouteMatcher.match
  rw [RouteMatcher.candidates_new, RouteMatcher.candidates_new, hfilter]

end

/-- `match` returns the first route of the configuration that serves the request and raises
`RouteNotFoundError` exactly when there is none; what other tenants configure does not matter. -/
theorem match_first_and_isolated (lib : StringLibrary) (routes : List RouteDefinition)
    (tenantId method path : String) :
    (∀ route, (RouteMatcher.new routes).match lib tenantId method path = some route ↔
      ∃ before after, routes = before ++ route :: after ∧
        Serves lib tenantId method path route ∧
        ∀ r ∈ before, ¬Serves lib tenantId method path r) ∧
    ((RouteMatcher.new routes).match lib tenantId method path = none ↔
      ∀ r ∈ routes, ¬Serves lib tenantId method path r) ∧
    ∀ routes', Relation.ReflTransGen (Edit tenantId) routes routes' →
      (RouteMatcher.new routes').match lib tenantId method path =
        (RouteMatcher.new routes).match lib tenantId method path := by
  refine ⟨fun route => ?_, ?_, fun routes' h => match_new_of_edits lib method path h⟩
  · rw [match_new_eq_find?, List.find?_eq_some_iff_append]
    simp only [Bool.not_eq_true', ← Bool.not_eq_true, serves_iff]
    constructor
    · rintro ⟨hserves, before, after, heq, hbefore⟩
      exact ⟨before, after, heq, hserves, hbefore⟩
    · rintro ⟨before, after, heq, hserves, hbefore⟩
      exact ⟨hserves, before, after, heq, hbefore⟩
  · rw [match_new_eq_find?, List.find?_eq_none]
    simp only [serves_iff]

def usersOf (tenantId pattern : String) : RouteDefinition :=
  { id := "r1", tenantId, name := "users", pathPattern := pattern, httpMethods := ["get"]
    backendServiceId := "users-svc" }

theorem match_beside_other_tenant :
    (RouteMatcher.new [usersOf "other" "*", usersOf "acme" "/users/*"]).match posix "acme" "GET"
      "/users/42" = some (usersOf "acme" "/users/*") := by
  have hedit : Edit "acme" [usersOf "acme" "/users/*"]
      [usersOf "other" "*", usersOf "acme" "/users/*"] := .insert [] _ (by decide)
  have hget : posix.upper "get" = "GET" := by decide +kernel
  have hGET : posix.upper "GET" = "GET" := by decide +kernel
  have hpath : posix.fnmatch "/users/42" "/users/*" = true := by decide +kernel
  rw [(match_first_and_isolated posix [usersOf "acme" "/users/*"] "acme" "GET" "/users/42").2.2 _
    (.single hedit)]
  simp [RouteMatcher.match, RouteMatcher.candidates_new, usersOf, hget, hGET, hpath]

end Sentinel.RouteMatching
