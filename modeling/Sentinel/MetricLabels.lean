import Sentinel.PathFidelity
import Sentinel.Proxy
import Mathlib.Data.Fintype.EquivFin

namespace Sentinel.MetricLabels

open Runs Text Router Dispatch ForwardedHeaders Proxy
open Pipeline hiding next step start

def letters (k : ℕ) : String := String.ofList (List.replicate (k + 1) 'a')

theorem letters_injective : Function.Injective letters := by
  intro j k h
  have hlen := congrArg (fun s => s.toList.length) h
  simpa [letters] using hlen

theorem routeLabel_letters (k : ℕ) : routeLabel (letters k) = letters k := by
  have hall : (letters k).toList.takeWhile (· ≠ '/') = (letters k).toList := by
    rw [List.takeWhile_eq_self_iff]
    intro c hc
    have ha : c = 'a' := by
      apply List.eq_of_mem_replicate (n := k + 1)
      simpa [letters] using hc
    simp [ha]
  have hne : letters k ≠ "" := fun h => by
    have hlen := congrArg (fun s => s.toList.length) h
    simp [letters] at hlen
  rw [routeLabel, hall, String.ofList_toList]
  exact if_neg hne

def probe (tenant : String) (k : ℕ) : HttpRequest :=
  { method := "GET", fullPath := letters k, headers := [("x-tenant-id", tenant)], query := []
    body := [], client := none, accepted := get_mem_proxyMethods }

variable (http : HttpLibrary) (lib : StringLibrary) (settings : Settings)

theorem tenantId_probe (newRequestId tenant : String) (k : ℕ) :
    (inboundOf http settings newRequestId (probe tenant k)).tenantId = tenant := by
  have hlower : "X-Tenant-ID".toLower = "x-tenant-id" ∧ "x-tenant-id".toLower = "x-tenant-id" := by
    decide +kernel
  have hspec := http.header_spec [("x-tenant-id", tenant)] "X-Tenant-ID"
  rw [hlower.1, values_singleton, if_pos hlower.2] at hspec
  simp only [inboundOf, probe]
  cases h : http.header [("x-tenant-id", tenant)] "X-Tenant-ID" with
  | none =>
    rw [h] at hspec
    exact absurd hspec (List.cons_ne_nil _ _)
  | some v =>
    rw [h] at hspec
    exact List.mem_singleton.mp hspec

variable (routes : List RouteDefinition) (max : ℤ) (instanceId : String)

theorem handle_done {q : Inbound} (h : ∀ route ∈ routes, route.tenantId ≠ q.tenantId) :
    ∃ result, handle lib ⟨.new routes, max, instanceId⟩ q = .done result := by
  obtain ⟨-, he⟩ | ⟨-, ⟨-, he⟩ | ⟨route, hmatch, -⟩⟩ :=
    handle_cases lib ⟨.new routes, max, instanceId⟩ q
  · exact ⟨_, he⟩
  · exact ⟨_, he⟩
  · obtain ⟨hmem, -, htenant⟩ := RouteMatcher.match_new hmatch
    exact absurd htenant (h route hmem)

/-- The endpoint after the first `n` paths have been asked for. -/
structure Labelled (n : ℕ) (s : Endpoint) : Prop where
  paths : s.paths.length = s.world.requests.length
  durations : s.durations = (List.range n).map letters
  totals : s.totals.map Prod.fst = (List.range n).map letters

theorem labelled_succ {n : ℕ} {s : Endpoint} (hs : Labelled n s) {tenant : String}
    (h : ∀ route ∈ routes, route.tenantId ≠ tenant) :
    ∃ t, step http lib ⟨.new routes, max, instanceId⟩ settings s
      (.request (probe tenant n) "" 0) t ∧ Labelled (n + 1) t := by
  obtain ⟨result, hdone⟩ := handle_done lib routes max instanceId
    (q := inboundOf http settings "" (probe tenant n))
    (by rwa [tenantId_probe http settings "" tenant n])
  have hpath : (s.paths ++ [letters n])[s.world.requests.length]? = some (letters n) := by
    rw [← hs.paths, List.getElem?_concat_length]
  refine ⟨_, rfl, ?_⟩
  rw [Endpoint.record_done result (letters n) (by simp [hdone]) hpath]
  refine ⟨?_, ?_, ?_⟩
  · simp [hs.paths]
  · simp [hs.durations, routeLabel_letters, List.range_succ]
  · simp [hs.totals, routeLabel_letters, List.range_succ]

theorem reaches_labelled (fleet : Fleet) (backing : Requests.Backing) {tenant : String}
    (h : ∀ route ∈ routes, route.tenantId ≠ tenant) (n : ℕ) :
    ∃ s, Reaches (step http lib ⟨.new routes, max, instanceId⟩ settings) (start fleet backing) s ∧
      Labelled n s := by
  induction n with
  | zero => exact ⟨_, Reaches.refl _, rfl, rfl, rfl⟩
  | succ n ih =>
    obtain ⟨s, hr, hs⟩ := ih
    obtain ⟨t, ht, hl⟩ := labelled_succ http lib settings routes max instanceId hs h
    exact ⟨t, hr.tail ht, hl⟩

theorem card_letters (n : ℕ) : ((List.range n).map letters).toFinset.card = n := by
  rw [List.toFinset_card_of_nodup (List.nodup_range.map letters_injective)]
  simp

/-- However few routes there are, a client can make the gateway record any number of route
labels. -/
theorem route_labels_unbounded (fleet : Fleet) (backing : Requests.Backing) (bound : ℕ) :
    ∃ s, Reaches (step http lib ⟨.new routes, max, instanceId⟩ settings) (start fleet backing) s ∧
      bound < s.durations.toFinset.card ∧ bound < (s.totals.map Prod.fst).toFinset.card := by
  obtain ⟨tenant, htenant⟩ :=
    Infinite.exists_notMem_finset (routes.map RouteDefinition.tenantId).toFinset
  have hfresh : ∀ route ∈ routes, route.tenantId ≠ tenant := by
    rintro route hroute rfl
    exact htenant (List.mem_toFinset.mpr (List.mem_map_of_mem hroute))
  obtain ⟨s, hr, hs⟩ := reaches_labelled http lib settings routes max instanceId fleet backing
    hfresh (bound + 1)
  refine ⟨s, hr, ?_, ?_⟩
  · rw [hs.durations, card_letters]
    exact Nat.lt_succ_self bound
  · rw [hs.totals, card_letters]
    exact Nat.lt_succ_self bound

theorem no_bound_for_users :
    ¬∃ bound, ∀ s, Reaches (step starlette posix PathFidelity.users {})
        (start usersFleet ⟨.empty, ⟨fresh, .new {}⟩⟩) s →
      s.durations.toFinset.card ≤ bound ∧ (s.totals.map Prod.fst).toFinset.card ≤ bound := by
  rintro ⟨bound, h⟩
  have hfresh : ∀ route ∈ [usersRoute], route.tenantId ≠ "default" := by decide
  obtain ⟨s, hr, hs⟩ := reaches_labelled starlette posix {} [usersRoute] 1048576 "sentinel-1"
    usersFleet ⟨.empty, ⟨fresh, .new {}⟩⟩ hfresh (bound + 1)
  have hle := (h s hr).1
  rw [hs.durations, card_letters] at hle
  exact absurd hle (Nat.not_succ_le_self bound)

end Sentinel.MetricLabels
