import Sentinel.ForwardedHeaders
import Sentinel.Requests

namespace Sentinel.Proxy

open Text Router Limiter Dispatch ForwardedHeaders
open Pipeline hiding next step start
open Dict (valuesOf)

def proxyMethods : List String := ["GET", "POST", "PUT", "PATCH", "DELETE", "OPTIONS", "HEAD"]

theorem get_mem_proxyMethods : "GET" ∈ proxyMethods := by decide

/-- A request to `/proxy/{full_path:path}` with its header fields and query pairs in the order of
arrival. -/
structure HttpRequest where
  method : String
  fullPath : String
  headers : List (String × String)
  query : List (String × String)
  body : Bytes
  client : Option String
  accepted : method ∈ proxyMethods

structure Settings where
  rateLimitDefaultFailMode : RedisFailureMode := .failClosed
  retryMaxAttempts : ℤ := 2
  retryBaseBackoffMs : ℤ := 100
  retryTotalDeadlineMs : ℤ := 2000

def OneOf (values : List String) : Option String → Prop
  | some v => v ∈ values
  | none => values = []

/-- What the endpoint takes from Starlette and from Python's strings. `header` is
`request.headers.get`; `headerDict` and `queryDict` are `dict(request.headers)` and
`dict(request.query_params)`, mappings with one value for each name. -/
structure HttpLibrary where
  strip : String → String
  header : List (String × String) → String → Option String
  headerDict : List (String × String) → Dict String String
  queryDict : List (String × String) → Dict String String
  header_spec : ∀ fields name, OneOf (values fields name.toLower) (header fields name)
  queryDict_spec : ∀ query name, OneOf (valuesOf query name) ((queryDict query).get? name)

variable (http : HttpLibrary)

def withoutBearer (s : String) : String :=
  if "Bearer ".toList.isPrefixOf s.toList then String.ofList (s.toList.drop 7) else s

def apiKey (r : HttpRequest) : String :=
  http.strip (withoutBearer ((http.header r.headers "Authorization").getD ""))

/-- The arguments that the endpoint gives to `handle`. -/
def inboundOf (settings : Settings) (newRequestId : String) (r : HttpRequest) : Inbound :=
  let requestId := (http.header r.headers "X-Request-ID").getD ""
  let key := apiKey http r
  { requestId := if requestId = "" then newRequestId else requestId
    tenantId := (http.header r.headers "X-Tenant-ID").getD "default"
    method := r.method
    path := "/" ++ r.fullPath
    headers := http.headerDict r.headers
    params := http.queryDict r.query
    body := r.body
    clientIp := r.client.getD "unknown"
    rateLimitPolicy :=
      { capacity := 100, refillRate := 100, failureMode := settings.rateLimitDefaultFailMode }
    rateLimitKey := "rl:apikey:" ++ if key = "" then "anonymous" else key
    retryPolicy :=
      { maxAttempts := settings.retryMaxAttempts
        baseBackoffMs := settings.retryBaseBackoffMs
        totalDeadlineMs := settings.retryTotalDeadlineMs } }

def routeLabel (fullPath : String) : String :=
  let first := String.ofList (fullPath.toList.takeWhile (· ≠ '/'))
  if first = "" then "root" else first

/-- The endpoint with all of its requests: `paths` are their full paths, `durations` the route
labels observed in `REQUEST_DURATION`, `totals` the labels counted in `REQUESTS_TOTAL`. -/
structure Endpoint where
  world : Requests.World
  paths : List String := []
  durations : List String := []
  totals : List (String × String) := []

def start (fleet : Fleet) (backing : Requests.Backing) : Endpoint :=
  { world := Requests.start fleet backing }

/-- `handle` has returned for request `i`; the metrics follow without another `await`. An exception
leaves no labels. -/
def Endpoint.record (s : Endpoint) (i : ℕ) (world : Requests.World) : Endpoint :=
  match world.requests[i]?.map Requests.Handled.stage, s.paths[i]? with
  | some (.done result), some path =>
    { s with
      world
      durations := s.durations ++ [routeLabel path]
      totals := s.totals ++ [(routeLabel path, toString result.statusCode)] }
  | _, _ => { s with world }

theorem Endpoint.record_done {s : Endpoint} {i : ℕ} {world : Requests.World}
    (result : PipelineResult) (path : String)
    (hdone : world.requests[i]?.map Requests.Handled.stage = some (.done result))
    (hpath : s.paths[i]? = some path) :
    s.record i world = { s with
      world
      durations := s.durations ++ [routeLabel path]
      totals := s.totals ++ [(routeLabel path, toString result.statusCode)] } := by
  rw [Endpoint.record, hdone, hpath]

inductive Action
  | request (r : HttpRequest) (newRequestId : String) (nowMs : ℤ)
  | script (i : ℕ) (overflow : ℤ)
  | resume (i : ℕ) (m : Moment) (signal : Resumption)
  | write (r : Ref) (status : InstanceStatus)
  | redis (buckets : Dict String TokenBucket.Bucket)

variable (lib : StringLibrary) (p : GatewayPipeline) (settings : Settings)

def next (s : Endpoint) : Action → Option Endpoint
  | .request r newRequestId nowMs =>
    (Requests.next lib p s.world (.arrive (inboundOf http settings newRequestId r) nowMs)).map
      (Endpoint.record { s with paths := s.paths ++ [r.fullPath] } s.world.requests.length)
  | .script i overflow => (Requests.next lib p s.world (.script i overflow)).map (s.record i)
  | .resume i m signal => (Requests.next lib p s.world (.resume i m signal)).map (s.record i)
  | .write r status =>
    (Requests.next lib p s.world (.write r status)).map (fun world => { s with world })
  | .redis buckets =>
    (Requests.next lib p s.world (.redis buckets)).map (fun world => { s with world })

def step (s : Endpoint) (a : Action) (t : Endpoint) : Prop := next http lib p settings s a = some t

theorem get?_foldl_set (query : List (String × String)) (name : String) :
    (query.foldl (fun d e => d.set e.1 e.2) (.empty : Dict String String)).get? name =
      (valuesOf query name).getLast? := by
  induction query using List.reverseRecOn with
  | nil => rfl
  | append_singleton query e ih =>
    rw [List.foldl_concat, Dict.get?_set, ih]
    by_cases h : e.1 = name
    · simp [valuesOf, h]
    · simp [valuesOf, h, Ne.symm h]

/-- Starlette's own choices: the first of several header fields, the last of several query pairs. -/
def starlette : HttpLibrary where
  strip s := String.ofList ((s.toList.dropWhile Char.isWhitespace).rdropWhile Char.isWhitespace)
  header fields name := (values fields name.toLower).head?
  headerDict fields :=
    fields.foldl (fun d e => if e.1 ∈ d.keys then d else d.set e.1 e.2) .empty
  queryDict query := query.foldl (fun d e => d.set e.1 e.2) .empty
  header_spec fields name := by
    cases h : values fields name.toLower <;> simp [OneOf]
  queryDict_spec query name := by
    rw [get?_foldl_set]
    cases h : (valuesOf query name).getLast? with
    | none => exact List.getLast?_eq_none_iff.mp h
    | some v => exact List.mem_of_getLast? h

end Sentinel.Proxy
