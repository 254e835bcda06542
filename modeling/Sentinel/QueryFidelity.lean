import Sentinel.PathFidelity
import Sentinel.Proxy

namespace Sentinel.QueryFidelity

open Runs Text Dispatch Pipeline PathFidelity
open Proxy hiding start step next
open Dict (valuesOf valuesOf_items nodup_iff_length_valuesOf)

/-- The pairs that httpx encodes for a forward, each entry of `params` once. -/
def outboundQuery (f : Forward) : List (String × String) := f.params.items

theorem oneOf_toList_eq_iff {values : List String} {o : Option String} (h : OneOf values o) :
    o.toList = values ↔ values.length ≤ 1 := by
  cases o with
  | none =>
    rw [show values = [] from h]
    simp
  | some v =>
    have hv : v ∈ values := h
    constructor
    · rintro rfl
      simp
    · intro hlen
      obtain ⟨w, rfl⟩ := List.length_eq_one_iff.mp
        (le_antisymm hlen (List.length_pos_of_mem hv))
      rw [List.mem_singleton.mp hv]
      rfl

/-- A forward carries the query of its request, name by name, exactly when no name is repeated
in it. -/
theorem query_kept_iff (http : HttpLibrary) (lib : StringLibrary) (p : GatewayPipeline)
    (settings : Settings) (newRequestId : String) (r : HttpRequest) {t : Handling}
    (h : Reaches (step lib p (inboundOf http settings newRequestId r))
      (start lib p (inboundOf http settings newRequestId r)) t) {clock : ℚ} {f : Forward}
    (hf : .forward clock f ∈ t.trace) :
    (∀ name, valuesOf (outboundQuery f) name = valuesOf r.query name) ↔
      (r.query.map Prod.fst).Nodup := by
  obtain ⟨route, selected, remainingS, rfl⟩ := reaches_sent h hf
  have hparams : outboundQuery (forwardOf (callOf p (inboundOf http settings newRequestId r) route)
      selected remainingS) = (http.queryDict r.query).items := rfl
  rw [hparams, nodup_iff_length_valuesOf]
  apply forall_congr'
  intro name
  rw [valuesOf_items]
  exact oneOf_toList_eq_iff (http.queryDict_spec r.query name)

def asked (query : List (String × String)) : HttpRequest :=
  { method := "GET", fullPath := "users/42", headers := [("x-tenant-id", "acme")], query
    body := [], client := some "10.0.0.7", accepted := get_mem_proxyMethods }

def askedInbound (query : List (String × String)) : Inbound :=
  { getPath "/users/42" with
    headers := Dict.empty.set "x-tenant-id" "acme"
    params := starlette.queryDict query
    rateLimitKey := "rl:apikey:anonymous" }

theorem inboundOf_asked (query : List (String × String)) :
    inboundOf starlette {} "r1" (asked query) = askedInbound query := by
  have hlower : "x-tenant-id".toLower = "x-tenant-id" ∧ "X-Tenant-ID".toLower = "x-tenant-id" ∧
      "X-Request-ID".toLower = "x-request-id" ∧ "Authorization".toLower = "authorization" := by
    decide +kernel
  have hheader : ∀ name, starlette.header [("x-tenant-id", "acme")] name =
      if "x-tenant-id" = name.toLower then some "acme" else none := by
    intro name
    simp only [starlette, ForwardedHeaders.values_singleton, hlower.1]
    split_ifs <;> rfl
  have hstrip : starlette.strip (withoutBearer "") = "" := by decide +kernel
  have hdict : starlette.headerDict [("x-tenant-id", "acme")] =
      Dict.empty.set "x-tenant-id" "acme" := rfl
  simp [inboundOf, apiKey, asked, hheader, hlower, hstrip, hdict, askedInbound, getPath]

theorem query_kept_of_filter : ∃ t clock f,
    Reaches (step posix users (inboundOf starlette {} "r1" (asked [("page", "2"), ("size", "9")])))
      (start posix users (inboundOf starlette {} "r1" (asked [("page", "2"), ("size", "9")]))) t ∧
    .forward clock f ∈ t.trace ∧
    ∀ name, valuesOf (outboundQuery f) name = valuesOf [("page", "2"), ("size", "9")] name := by
  obtain ⟨t, hr, ht⟩ := Reaches.of_check
    (next posix users (askedInbound [("page", "2"), ("size", "9")]))
    (fun t => anyForward (fun _ => true) t.trace)
    (start posix users (askedInbound [("page", "2"), ("size", "9")])) alone (by decide +kernel)
  obtain ⟨clock, f, hf, -⟩ := exists_forward ht
  rw [← inboundOf_asked] at hr
  exact ⟨t, clock, f, hr, hf, (query_kept_iff starlette posix users {} "r1"
    (asked [("page", "2"), ("size", "9")]) hr hf).mpr (by decide)⟩

/-- Of `?id=1&id=2` only the second pair reaches the backend. -/
theorem repeated_name_lost : ∃ t clock f,
    Reaches (step posix users (inboundOf starlette {} "r1" (asked [("id", "1"), ("id", "2")])))
      (start posix users (inboundOf starlette {} "r1" (asked [("id", "1"), ("id", "2")]))) t ∧
    .forward clock f ∈ t.trace ∧
    ¬∀ name, valuesOf (outboundQuery f) name = valuesOf [("id", "1"), ("id", "2")] name := by
  obtain ⟨t, hr, ht⟩ := Reaches.of_check
    (next posix users (askedInbound [("id", "1"), ("id", "2")]))
    (fun t => anyForward (fun f => valuesOf (outboundQuery f) "id" = ["2"]) t.trace)
    (start posix users (askedInbound [("id", "1"), ("id", "2")])) alone (by decide +kernel)
  obtain ⟨clock, f, hf, hlost⟩ := exists_forward ht
  rw [← inboundOf_asked] at hr
  refine ⟨t, clock, f, hr, hf, fun h => ?_⟩
  have hid := h "id"
  rw [of_decide_eq_true hlost] at hid
  exact absurd hid (by decide)

end Sentinel.QueryFidelity
