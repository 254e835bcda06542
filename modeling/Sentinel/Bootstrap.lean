import Sentinel.Health
import Mathlib.Data.List.GetD

namespace Sentinel.Bootstrap

open Text Router Selection Health

/-- What `yaml.safe_load` returns, with the keys that are strings. -/
inductive Yaml
  | null
  | bool (b : Bool)
  | int (n : ℤ)
  | str (s : String)
  | seq (items : List Yaml)
  | map (entries : List (String × Yaml))

namespace Yaml

def truthy : Yaml → Bool
  | .null => false
  | .bool b => b
  | .int n => n ≠ 0
  | .str s => s ≠ ""
  | .seq items => !items.isEmpty
  | .map entries => !entries.isEmpty

def item (y : Yaml) (key : String) : Option Yaml :=
  match y with
  | .map entries => Dict.lookup key entries
  | _ => none

def get (y : Yaml) (key : String) (default : Yaml) : Option Yaml :=
  match y with
  | .map entries => some ((Dict.lookup key entries).getD default)
  | _ => none

def iter : Yaml → Option (List Yaml)
  | .seq items => some items
  | .map entries => some (entries.map (fun e => .str e.1))
  | .str s => some (s.toList.map (fun c => .str c.toString))
  | _ => none

def str? : Yaml → Option String
  | .str s => some s
  | _ => none

def int? : Yaml → Option ℤ
  | .int n => some n
  | _ => none

def strs? : Yaml → Option (List String)
  | .seq items => items.mapM str?
  | _ => none

end Yaml

/-- `none` is an exception, or a value that the annotations of `RouteDefinition` exclude. -/
def loadRoute (r : Yaml) : Option RouteDefinition := do
  let id ← (← r.item "id").str?
  let tenantId ← (← r.item "tenant_id").str?
  let name ← (← r.item "name").str?
  let pathPattern ← (← r.item "path_pattern").str?
  let httpMethods ← (← r.item "http_methods").strs?
  let backendServiceId ← (← r.item "backend_service_id").str?
  let timeoutMs ← (← r.get "timeout_ms" (.int 2000)).int?
  let priority ← (← r.get "priority" (.str "NORMAL")).str?
  return { id, tenantId, name, pathPattern, httpMethods, backendServiceId, timeoutMs, priority }

def loadInstance (inst : Yaml) : Option BackendInstance := do
  let id ← (← inst.item "id").str?
  let host ← (← inst.item "host").str?
  let port ← (← inst.item "port").int?
  let weight ← (← inst.get "weight" (.int 1)).int?
  return { id, host, port, weight, status := .unknown }

def loadService (backends : Dict String (List BackendInstance)) (svc : Yaml) :
    Option (Dict String (List BackendInstance)) := do
  let instances ← (← (← svc.get "instances" (.seq [])).iter).mapM loadInstance
  return backends.set (← (← svc.item "id").str?) instances

/-- What the loader is run with: the texts of the files, the parser and `_DEFAULT_CONFIG_PATH`. -/
structure Host where
  readText : String → Option String
  safeLoad : String → Option Yaml
  defaultConfigPath : String

def Host.path (host : Host) : Option String → String
  | some configPath => if configPath = "" then host.defaultConfigPath else configPath
  | none => host.defaultConfigPath

def loadRoutesAndBackends (host : Host) (configPath : Option String) :
    Option (List RouteDefinition × Dict String (List BackendInstance)) :=
  match host.readText (host.path configPath) with
  | none => some ([], .empty)
  | some text => do
    let loaded ← host.safeLoad text
    let data := if loaded.truthy then loaded else .map []
    let routes ← (← (← data.get "routes" (.seq [])).iter).mapM loadRoute
    let backends ← (← (← data.get "backend_services" (.seq [])).iter).foldlM loadService .empty
    return (routes, backends)

def dumpRoute (r : RouteDefinition) : Yaml :=
  .map [("id", .str r.id), ("tenant_id", .str r.tenantId), ("name", .str r.name),
    ("path_pattern", .str r.pathPattern), ("http_methods", .seq (r.httpMethods.map .str)),
    ("backend_service_id", .str r.backendServiceId), ("timeout_ms", .int r.timeoutMs),
    ("priority", .str r.priority), ("enabled", .bool r.enabled)]

def statusValue : InstanceStatus → String
  | .healthy => "HEALTHY"
  | .unhealthy => "UNHEALTHY"
  | .draining => "DRAINING"
  | .unknown => "UNKNOWN"

def dumpInstance (i : BackendInstance) : Yaml :=
  .map [("id", .str i.id), ("host", .str i.host), ("port", .int i.port), ("weight", .int i.weight),
    ("status", .str (statusValue i.status)), ("failure_count", .int i.failureCount)]

def dumpService (e : String × List BackendInstance) : Yaml :=
  .map [("id", .str e.1), ("instances", .seq (e.2.map dumpInstance))]

def layout (routes : List RouteDefinition) (services : Dict String (List BackendInstance)) : Yaml :=
  .map [("routes", .seq (routes.map dumpRoute)),
    ("backend_services", .seq (services.items.map dumpService))]

def Unjudged (i : BackendInstance) : Prop := i.status = .unknown ∧ i.failureCount = 0

def Fresh (backends : Dict String (List BackendInstance)) : Prop :=
  ∀ e ∈ backends.items, ∀ i ∈ e.2, Unjudged i

theorem mapM_map_eq_some {α β γ : Type} {dump : α → β} {load : β → Option γ} {f : α → γ}
    {l : List α} (h : ∀ a ∈ l, load (dump a) = some (f a)) :
    (l.map dump).mapM load = some (l.map f) := by
  induction l with
  | nil => rfl
  | cons a l ih =>
    obtain ⟨ha, hl⟩ := List.forall_mem_cons.mp h
    rw [List.map_cons, List.mapM_cons, ha, ih hl]
    rfl

theorem mapM_map_eq_self {α β : Type} {dump : α → β} {load : β → Option α} {l : List α}
    (h : ∀ a ∈ l, load (dump a) = some a) : (l.map dump).mapM load = some l := by
  have hload := mapM_map_eq_some (f := id) h
  rwa [List.map_id] at hload

theorem loadRoute_dumpRoute (r : RouteDefinition) :
    loadRoute (dumpRoute r) = some { r with enabled := true } := by
  have hmethods : (r.httpMethods.map Yaml.str).mapM Yaml.str? = some r.httpMethods :=
    mapM_map_eq_self fun _ _ => rfl
  simp [loadRoute, dumpRoute, Yaml.item, Yaml.get, Yaml.str?, Yaml.int?, Yaml.strs?, Dict.lookup,
    hmethods]

theorem loadInstance_dumpInstance {i : BackendInstance} (h : Unjudged i) :
    loadInstance (dumpInstance i) = some i := by
  obtain ⟨id, host, port, weight, status, failureCount⟩ := i
  obtain ⟨rfl, rfl⟩ := h
  simp [loadInstance, dumpInstance, Yaml.item, Yaml.get, Yaml.str?, Yaml.int?, Dict.lookup]

theorem loadService_dumpService {e : String × List BackendInstance} (h : ∀ i ∈ e.2, Unjudged i)
    (backends : Dict String (List BackendInstance)) :
    loadService backends (dumpService e) = some (backends.set e.1 e.2) := by
  have hinstances : (e.2.map dumpInstance).mapM loadInstance = some e.2 :=
    mapM_map_eq_self fun i hi => loadInstance_dumpInstance (h i hi)
  simp [loadService, dumpService, Yaml.item, Yaml.get, Yaml.iter, Yaml.str?, Dict.lookup,
    hinstances]

theorem foldlM_loadService {items : List (String × List BackendInstance)}
    (h : ∀ e ∈ items, ∀ i ∈ e.2, Unjudged i) (backends : Dict String (List BackendInstance)) :
    (items.map dumpService).foldlM loadService backends =
      some (items.foldl (fun d e => d.set e.1 e.2) backends) := by
  induction items generalizing backends with
  | nil => rfl
  | cons e items ih =>
    obtain ⟨he, hitems⟩ := List.forall_mem_cons.mp h
    rw [List.map_cons, List.foldlM_cons, loadService_dumpService he]
    exact ih hitems (backends.set e.1 e.2)

theorem exists_of_mem_mapM {α β : Type} {f : α → Option β} {l : List α} {l' : List β}
    (h : l.mapM f = some l') {b : β} (hb : b ∈ l') : ∃ a ∈ l, f a = some b := by
  induction l generalizing l' with
  | nil =>
    cases h
    exact absurd hb List.not_mem_nil
  | cons a l ih =>
    rw [List.mapM_cons] at h
    obtain ⟨c, hc, h⟩ := Option.bind_eq_some_iff.mp h
    obtain ⟨l'', hl, h⟩ := Option.bind_eq_some_iff.mp h
    cases h
    obtain rfl | hb := List.mem_cons.mp hb
    · exact ⟨a, List.mem_cons_self, hc⟩
    · obtain ⟨a', ha, hf⟩ := ih hl hb
      exact ⟨a', List.mem_cons_of_mem _ ha, hf⟩

theorem forall_bind {α β : Type} {x : Option α} {f : α → Option β} {P : β → Prop}
    (h : ∀ a, ∀ b, f a = some b → P b) : ∀ b, (x >>= f) = some b → P b := by
  intro b hb
  obtain ⟨a, -, hb⟩ := Option.bind_eq_some_iff.mp hb
  exact h a b hb

theorem enabled_of_loadRoute {y : Yaml} : ∀ r, loadRoute y = some r → r.enabled = true := by
  unfold loadRoute
  iterate 16 refine forall_bind fun _ => ?_
  intro r h
  cases h
  rfl

theorem unjudged_of_loadInstance {y : Yaml} : ∀ i, loadInstance y = some i → Unjudged i := by
  unfold loadInstance
  iterate 8 refine forall_bind fun _ => ?_
  intro i h
  cases h
  exact ⟨rfl, rfl⟩

theorem Fresh.loadService {backends backends' : Dict String (List BackendInstance)} {svc : Yaml}
    (hfresh : Fresh backends) (h : loadService backends svc = some backends') :
    Fresh backends' := by
  obtain ⟨y, -, h⟩ := Option.bind_eq_some_iff.mp h
  obtain ⟨items, -, h⟩ := Option.bind_eq_some_iff.mp h
  obtain ⟨instances, hinstances, h⟩ := Option.bind_eq_some_iff.mp h
  obtain ⟨key, -, h⟩ := Option.bind_eq_some_iff.mp h
  obtain ⟨id, -, h⟩ := Option.bind_eq_some_iff.mp h
  cases h
  intro e he i hi
  have hget := Dict.mem_items_iff.mp he
  rw [Dict.get?_set] at hget
  split_ifs at hget with hid
  · cases hget
    obtain ⟨y, -, hy⟩ := exists_of_mem_mapM hinstances hi
    exact unjudged_of_loadInstance i hy
  · exact hfresh e (Dict.mem_items_iff.mpr hget) i hi

theorem Fresh.foldlM {svcs : List Yaml} {backends backends' : Dict String (List BackendInstance)}
    (hfresh : Fresh backends) (h : svcs.foldlM Bootstrap.loadService backends = some backends') :
    Fresh backends' := by
  induction svcs generalizing backends with
  | nil =>
    cases h
    exact hfresh
  | cons svc svcs ih =>
    rw [List.foldlM_cons] at h
    obtain ⟨next, hnext, h⟩ := Option.bind_eq_some_iff.mp h
    exact ih (hfresh.loadService hnext) h

theorem load_fresh {host : Host} {configPath : Option String} {routes : List RouteDefinition}
    {backends : Dict String (List BackendInstance)}
    (h : loadRoutesAndBackends host configPath = some (routes, backends)) :
    (∀ r ∈ routes, r.enabled = true) ∧ Fresh backends := by
  have hempty : Fresh .empty := fun e he => absurd he List.not_mem_nil
  unfold loadRoutesAndBackends at h
  split at h
  · cases h
    exact ⟨fun r hr => absurd hr List.not_mem_nil, hempty⟩
  · obtain ⟨loaded, -, h⟩ := Option.bind_eq_some_iff.mp h
    obtain ⟨y, -, h⟩ := Option.bind_eq_some_iff.mp h
    obtain ⟨items, -, h⟩ := Option.bind_eq_some_iff.mp h
    obtain ⟨routes', hroutes, h⟩ := Option.bind_eq_some_iff.mp h
    obtain ⟨y', -, h⟩ := Option.bind_eq_some_iff.mp h
    obtain ⟨svcs, -, h⟩ := Option.bind_eq_some_iff.mp h
    obtain ⟨backends', hbackends, h⟩ := Option.bind_eq_some_iff.mp h
    cases h
    refine ⟨fun r hr => ?_, hempty.foldlM hbackends⟩
    obtain ⟨y, -, hy⟩ := exists_of_mem_mapM hroutes hr
    exact enabled_of_loadRoute r hy

section

variable {host : Host} {configPath : Option String} {text : String}
  {routes : List RouteDefinition} {services : Dict String (List BackendInstance)}

theorem load_layout (hread : host.readText (host.path configPath) = some text)
    (hload : host.safeLoad text = some (layout routes services)) (h : Fresh services) :
    loadRoutesAndBackends host configPath =
      some (routes.map ({ · with enabled := true }), services) := by
  have hroutes := mapM_map_eq_some (l := routes) fun r _ => loadRoute_dumpRoute r
  have hservices := foldlM_loadService h .empty
  have hmerge : services.items.foldl (fun d e => d.set e.1 e.2) .empty = services :=
    Dict.empty_merge services
  rw [hmerge] at hservices
  simp [loadRoutesAndBackends, hread, hload, layout, Yaml.truthy, Yaml.get, Yaml.iter, Dict.lookup,
    hroutes, hservices]

/-- The loader gives back what was written exactly when no route was written as disabled. -/
theorem load_layout_iff (hread : host.readText (host.path configPath) = some text)
    (hload : host.safeLoad text = some (layout routes services)) (h : Fresh services) :
    (∃ loaded backends, loadRoutesAndBackends host configPath = some (loaded, backends) ∧
      loaded = routes ∧ backends = services ∧
      ∀ lib tenantId method path route,
        (RouteMatcher.new loaded).match lib tenantId method path = some route →
          route ∈ routes ∧ route.enabled = true) ↔
    ∀ r ∈ routes, r.enabled = true := by
  constructor
  · rintro ⟨loaded, backends, hloaded, rfl, -, -⟩
    exact (load_fresh hloaded).1
  · intro henabled
    have hsame : routes.map ({ · with enabled := true }) = routes := by
      refine (List.map_congr_left fun r hr => ?_).trans (List.map_id routes)
      rw [id, ← henabled r hr]
    refine ⟨_, _, load_layout hread hload h, hsame, rfl, ?_⟩
    intro lib tenantId method path route hmatch
    rw [hsame] at hmatch
    obtain ⟨hmem, hon, -⟩ := RouteMatcher.match_new hmatch
    exact ⟨hmem, hon⟩

end

/-- Every instance that is loaded is an object of its own. -/
def refsFrom (next : Ref) : List (String × List BackendInstance) → List (String × List Ref)
  | [] => []
  | e :: rest => (e.1, List.range' next e.2.length) :: refsFrom (next + e.2.length) rest

theorem keys_refsFrom (next : Ref) (items : List (String × List BackendInstance)) :
    (refsFrom next items).map Prod.fst = items.map Prod.fst := by
  induction items generalizing next with
  | nil => rfl
  | cons e items ih => rw [refsFrom, List.map_cons, List.map_cons, ih]

def fleetOf (backends : Dict String (List BackendInstance)) : Fleet where
  get r := (backends.items.flatMap Prod.snd).getD r { id := "", host := "", port := 0 }
  byService := ⟨refsFrom 0 backends.items, keys_refsFrom 0 backends.items ▸ backends.nodup⟩

theorem flatMap_refsFrom (next : Ref) (items : List (String × List BackendInstance)) :
    (refsFrom next items).flatMap Prod.snd =
      List.range' next (items.flatMap Prod.snd).length := by
  induction items generalizing next with
  | nil => rfl
  | cons e items ih =>
    rw [refsFrom, List.flatMap_cons, ih, List.flatMap_cons, List.length_append,
      List.range'_append_1]

theorem pool_fleetOf (backends : Dict String (List BackendInstance)) :
    pool (fleetOf backends) = List.range' 0 (backends.items.flatMap Prod.snd).length :=
  flatMap_refsFrom 0 backends.items

theorem lookup_refsFrom (s : String) (before : List BackendInstance) (d : BackendInstance)
    (items : List (String × List BackendInstance)) :
    ((Dict.lookup s (refsFrom before.length items)).getD []).map
        (fun r => (before ++ items.flatMap Prod.snd).getD r d) =
      (Dict.lookup s items).getD [] := by
  induction items generalizing before with
  | nil => rfl
  | cons e items ih =>
    rw [refsFrom, Dict.lookup, Dict.lookup]
    by_cases h : e.1 = s
    · simp only [h, ↓reduceIte, Option.getD_some, List.flatMap_cons]
      apply List.ext_getElem
      · simp
      · intro i hi hi'
        simp [List.getElem?_append_right, List.getElem?_append_left, hi']
    · have hrest := ih (before ++ e.2)
      rw [List.length_append, List.append_assoc] at hrest
      simpa only [h, ↓reduceIte, List.flatMap_cons] using hrest

theorem instancesOf_fleetOf (backends : Dict String (List BackendInstance)) (s : String) :
    (instancesOf (fleetOf backends) s).map (fleetOf backends).get = (backends.get? s).getD [] :=
  lookup_refsFrom s [] _ backends.items

theorem load_fleetOf {host : Host} {configPath : Option String} {routes : List RouteDefinition}
    {backends : Dict String (List BackendInstance)}
    (h : loadRoutesAndBackends host configPath = some (routes, backends)) :
    (pool (fleetOf backends)).Nodup ∧
      ∀ r ∈ pool (fleetOf backends), Unjudged ((fleetOf backends).get r) := by
  rw [pool_fleetOf]
  refine ⟨List.nodup_range', fun r hr => ?_⟩
  have hlt : r < (backends.items.flatMap Prod.snd).length := by
    simpa using List.mem_range'_1.mp hr
  have hget : (fleetOf backends).get r = (backends.items.flatMap Prod.snd)[r] :=
    List.getD_eq_getElem _ _ hlt
  obtain ⟨e, he, hi⟩ := List.mem_flatMap.mp (List.getElem_mem hlt)
  rw [hget]
  exact (load_fresh h).2 e he _ hi

def usersRoute (enabled : Bool) : RouteDefinition :=
  { id := "r1", tenantId := "acme", name := "users", pathPattern := "/users/*"
    httpMethods := ["GET"], backendServiceId := "users-svc", enabled }

def usersServices : Dict String (List BackendInstance) :=
  Dict.empty.set "users-svc" [{ id := "u1", host := "users", port := 8080 }]

def usersText (enabled : String) : String :=
  "routes:\n- id: r1\n  tenant_id: acme\n  name: users\n  path_pattern: /users/*\n" ++
  "  http_methods:\n  - GET\n  backend_service_id: users-svc\n  timeout_ms: 2000\n" ++
  "  priority: NORMAL\n  enabled: " ++ enabled ++ "\nbackend_services:\n- id: users-svc\n" ++
  "  instances:\n  - id: u1\n    host: users\n    port: 8080\n    weight: 1\n" ++
  "    status: UNKNOWN\n    failure_count: 0\n"

def usersHost (enabled : Bool) : Host where
  readText path := if path = "routes.yaml" then some (usersText (toString enabled)) else none
  safeLoad text := if text = usersText (toString enabled) then
    some (layout [usersRoute enabled] usersServices) else none
  defaultConfigPath := "/app/infra/docker/routes.yaml"

theorem fresh_usersServices : Fresh usersServices := by
  simp [Fresh, usersServices, Dict.set, Dict.empty, Dict.put, Unjudged]

theorem usersHost_reads (enabled : Bool) :
    (usersHost enabled).readText ((usersHost enabled).path (some "routes.yaml")) =
      some (usersText (toString enabled)) := by
  simp [usersHost, Host.path]

theorem usersHost_loads (enabled : Bool) :
    (usersHost enabled).safeLoad (usersText (toString enabled)) =
      some (layout [usersRoute enabled] usersServices) := by
  simp [usersHost]

theorem load_enabled_route : ∃ loaded backends,
    loadRoutesAndBackends (usersHost true) (some "routes.yaml") = some (loaded, backends) ∧
      loaded = [usersRoute true] ∧ backends = usersServices ∧
      ∀ lib tenantId method path route,
        (RouteMatcher.new loaded).match lib tenantId method path = some route →
          route ∈ [usersRoute true] ∧ route.enabled = true :=
  (load_layout_iff (usersHost_reads true) (usersHost_loads true) fresh_usersServices).mpr
    (by simp [usersRoute])

theorem disabled_route_served :
    (usersHost false).safeLoad (usersText "false") =
      some (layout [usersRoute false] usersServices) ∧
    ∃ loaded, loadRoutesAndBackends (usersHost false) (some "routes.yaml") =
        some (loaded, usersServices) ∧ loaded ≠ [usersRoute false] ∧
      (RouteMatcher.new loaded).match posix "acme" "GET" "/users/42" = some (usersRoute true) ∧
      (RouteMatcher.new [usersRoute false]).match posix "acme" "GET" "/users/42" = none := by
  refine ⟨usersHost_loads false, [usersRoute true], ?_, by decide, by decide +kernel,
    by decide +kernel⟩
  exact load_layout (usersHost_reads false) (usersHost_loads false) fresh_usersServices

end Sentinel.Bootstrap
