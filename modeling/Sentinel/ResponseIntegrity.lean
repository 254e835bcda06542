import Sentinel.ForwardedHeaders
import Sentinel.PathFidelity

namespace Sentinel.ResponseIntegrity

open Text Router Dispatch Pipeline ForwardedHeaders PathFidelity
open Dict (valuesOf valuesOf_items)

/-- A response as the backend sends it: its header fields in order, and the body with the content
encodings that they name. -/
structure BackendResponse where
  statusCode : ℕ
  fields : List (String × String)
  encoded : Bytes

/-- How httpx reads a body: it undoes the content encodings it knows and leaves other bodies as
they are. -/
structure Decoder where
  content : List (String × String) → Bytes → Bytes
  content_plain : ∀ fields encoded, values fields "content-encoding" = [] →
    content fields encoded = encoded

def Decoder.response (decoder : Decoder) (r : BackendResponse) : Response :=
  ⟨r.statusCode, headersOf r.fields, decoder.content r.fields r.encoded⟩

def lengthOf (value : String) : Option ℕ :=
  if value ≠ "" ∧ value.toList.all Char.isDigit then
    some (value.toList.foldl (fun n c => 10 * n + (c.toNat - '0'.toNat)) 0)
  else none

/-- What a client may rely on, with header names compared without regard to case. -/
structure Integrity (requestId : String) (r : BackendResponse) (result : PipelineResult) :
    Prop where
  stripped : ∀ name ∈ hopByHopHeaders, values result.headers.items name = []
  stamped : values result.headers.items "x-request-id" = [requestId]
  measured : ∀ v ∈ values result.headers.items "content-length",
    lengthOf v = some result.body.length
  encoded : values result.headers.items "content-encoding" ≠ [] → result.body = r.encoded

/-- The backend sends no header that only concerns one connection and no request id of its own, its
`Content-Length` is that of the decoded body, and httpx has undone no encoding that it names. -/
structure Transparent (decoder : Decoder) (r : BackendResponse) : Prop where
  names : ∀ e ∈ r.fields, e.1.toLower ∉ hopByHopHeaders ∧ e.1.toLower ≠ "x-request-id"
  measured : ∀ v, joined (values r.fields "content-length") = some v →
    lengthOf v = some (decoder.content r.fields r.encoded).length
  encoded : ∀ e ∈ r.fields, e.1.toLower = "content-encoding" →
    decoder.content r.fields r.encoded = r.encoded

theorem values_cons (e : String × String) (l : List (String × String)) (name : String) :
    values (e :: l) name = (if e.1.toLower = name then [e.2] else []) ++ values l name := by
  by_cases h : e.1.toLower = name <;> simp [values, h]

theorem values_eq_nil_iff {l : List (String × String)} {name : String} :
    values l name = [] ↔ ∀ e ∈ l, e.1.toLower ≠ name := by
  simp [values, List.filter_eq_nil_iff]

theorem toLower_of_mem_headersOf {fields : List (String × String)} {k : String}
    (h : k ∈ (headersOf fields).keys) : k.toLower = k := by
  rw [Dict.mem_keys_iff, headersOf_get?, Option.isSome_iff_ne_none, Ne, joined_eq_none_iff,
    values_eq_nil_iff] at h
  push Not at h
  obtain ⟨e, -, rfl⟩ := h
  exact toLower_toLower e.1

theorem values_headersOf (fields : List (String × String)) (name : String) :
    values (headersOf fields).items name = (joined (values fields name)).toList := by
  have hlower : ∀ e ∈ (headersOf fields).items, e.1.toLower = e.1 :=
    fun e he => toLower_of_mem_headersOf (List.mem_map_of_mem he)
  have hsame : values (headersOf fields).items name = valuesOf (headersOf fields).items name := by
    unfold values valuesOf
    congr 1
    apply List.filter_congr
    intro e he
    rw [hlower e he]
  rw [hsame, valuesOf_items, headersOf_get?]

theorem requestId_lower : "X-Request-ID".toLower = "x-request-id" ∧
    "x-request-id" ≠ "X-Request-ID" ∧ "x-request-id" ∉ hopByHopHeaders := by
  decide +kernel

theorem passedOn_items (d : Call) (r : Response) (fields : List (String × String))
    (hr : r.headers = headersOf fields) :
    (passedOn d r).headers.items = ("X-Request-ID", d.requestId) :: (headersOf fields).items := by
  have hnew : ∀ k ∈ r.headers.keys, k ∉ (requestIdHeader d).keys := by
    intro k hk hmem
    rw [hr] at hk
    have hlower := toLower_of_mem_headersOf hk
    obtain rfl : k = "X-Request-ID" := List.mem_singleton.mp hmem
    exact requestId_lower.2.1 (requestId_lower.1.symm.trans hlower)
  have hmerge : (passedOn d r).headers.items = (requestIdHeader d).items ++ r.headers.items :=
    Dict.merge_items hnew
  rw [hmerge, hr]
  rfl

theorem values_passedOn (decoder : Decoder) (d : Call) (r : BackendResponse) (name : String) :
    values (passedOn d (decoder.response r)).headers.items name =
      (if "x-request-id" = name then [d.requestId] else []) ++
        (joined (values r.fields name)).toList := by
  rw [passedOn_items d (decoder.response r) r.fields rfl, values_cons, values_headersOf,
    requestId_lower.1]

section

variable (decoder : Decoder) (d : Call) (r : BackendResponse)

theorem stripped_iff :
    (∀ name ∈ hopByHopHeaders,
      values (passedOn d (decoder.response r)).headers.items name = []) ↔
      ∀ e ∈ r.fields, e.1.toLower ∉ hopByHopHeaders := by
  have hname : ∀ name ∈ hopByHopHeaders,
      (values (passedOn d (decoder.response r)).headers.items name = [] ↔
        ∀ e ∈ r.fields, e.1.toLower ≠ name) := by
    intro name hname
    have hne : "x-request-id" ≠ name := fun he => requestId_lower.2.2 (he ▸ hname)
    rw [values_passedOn, if_neg hne, List.nil_append, Option.toList_eq_nil_iff,
      joined_eq_none_iff, values_eq_nil_iff]
  constructor
  · intro h e he hmem
    exact (hname _ hmem).mp (h _ hmem) e he rfl
  · intro h name hmem
    exact (hname name hmem).mpr (fun e he heq => h e he (heq ▸ hmem))

theorem stamped_iff :
    values (passedOn d (decoder.response r)).headers.items "x-request-id" = [d.requestId] ↔
      ∀ e ∈ r.fields, e.1.toLower ≠ "x-request-id" := by
  rw [values_passedOn, if_pos rfl, List.append_right_eq_self, Option.toList_eq_nil_iff,
    joined_eq_none_iff, values_eq_nil_iff]

theorem values_passedOn_of_ne {name : String} (h : "x-request-id" ≠ name) :
    values (passedOn d (decoder.response r)).headers.items name =
      (joined (values r.fields name)).toList := by
  rw [values_passedOn, if_neg h, List.nil_append]

theorem integrity_passedOn_iff :
    Integrity d.requestId r (passedOn d (decoder.response r)) ↔ Transparent decoder r := by
  have hlength := values_passedOn_of_ne decoder d r (show "x-request-id" ≠ "content-length" by simp)
  have hencoding :=
    values_passedOn_of_ne decoder d r (show "x-request-id" ≠ "content-encoding" by simp)
  constructor
  · rintro ⟨hstripped, hstamped, hmeasured, hencoded⟩
    refine ⟨fun e he => ⟨?_, ?_⟩, fun v hv => ?_, fun e he hname => ?_⟩
    · exact (stripped_iff decoder d r).mp hstripped e he
    · exact (stamped_iff decoder d r).mp hstamped e he
    · exact hmeasured v (by rw [hlength, hv]; exact List.mem_singleton_self v)
    · apply hencoded
      rw [hencoding, Ne, Option.toList_eq_nil_iff, joined_eq_none_iff, values_eq_nil_iff]
      exact fun h => h e he hname
  · rintro ⟨hnames, hmeasured, hencoded⟩
    refine ⟨?_, ?_, fun v hv => ?_, fun hne => ?_⟩
    · exact (stripped_iff decoder d r).mpr (fun e he => (hnames e he).1)
    · exact (stamped_iff decoder d r).mpr (fun e he => (hnames e he).2)
    · rw [hlength, Option.mem_toList] at hv
      exact hmeasured v hv
    · rw [hencoding, Ne, Option.toList_eq_nil_iff, joined_eq_none_iff, values_eq_nil_iff] at hne
      push Not at hne
      obtain ⟨e, he, hname⟩ := hne
      exact hencoded e he hname

end

/-- Whenever a response below 500 arrives, `handle` returns a result, and the client can rely on
its headers exactly when the response was transparent. -/
theorem response_integrity_iff (decoder : Decoder) (lib : StringLibrary) (p : GatewayPipeline)
    (q : Inbound) (m : Moment) (g : Gateway) (route : RouteDefinition) (gates : Gates.Request)
    (l : Locals) (r : BackendResponse) (hstatus : r.statusCode < 500) :
    ∃ s result, proceed lib p q m g (.dispatching route gates (.forwarding l))
        (.dispatch (.outcome (.response (decoder.response r)))) = some s ∧
      s.stage = .done result ∧ result.statusCode = r.statusCode ∧
      (Integrity q.requestId r result ↔ Transparent decoder r) := by
  obtain ⟨r', hr', -, h⟩ | ⟨-, hno, -⟩ | ⟨hno, -⟩ :=
    received_cases lib (callOf p q route) m l g.shared (.response (decoder.response r))
  · cases hr'
    refine ⟨_, _, rfl, ?_, ?_, integrity_passedOn_iff decoder (callOf p q route) r⟩
    · rw [h]
      rfl
    · rfl
  · exact absurd (hno _ rfl) (not_le.mpr hstatus)
  · have hlow : (decoder.response r).statusCode < 600 := lt_trans hstatus (by norm_num)
    simp [handled, hlow] at hno

def plainBody : Decoder := ⟨fun _ encoded => encoded, fun _ _ _ => rfl⟩

def greeting (fields : List (String × String)) : BackendResponse := ⟨200, fields, [104, 105]⟩

def answered (r : BackendResponse) : Option Stretch :=
  proceed posix users (getPath "/users/42") (instant 0) ⟨fresh, .new {}⟩
    (.dispatching usersRoute { ids := ⟨"acme", "users", "users-svc"⟩ }
      (.forwarding { attempt := 1, deadline := .new 0 2000 }))
    (.dispatch (.outcome (.response (plainBody.response r))))

theorem integrity_of_greeting : ∃ s result,
    answered (greeting [("Content-Length", "2")]) = some s ∧ s.stage = .done result ∧
      Integrity "r1" (greeting [("Content-Length", "2")]) result := by
  obtain ⟨s, result, hs, hdone, -, hiff⟩ := response_integrity_iff plainBody posix users
    (getPath "/users/42") (instant 0) ⟨fresh, .new {}⟩ usersRoute
    { ids := ⟨"acme", "users", "users-svc"⟩ } { attempt := 1, deadline := .new 0 2000 }
    (greeting [("Content-Length", "2")]) (by decide)
  refine ⟨s, result, hs, hdone, hiff.mpr ⟨?_, ?_, ?_⟩⟩
  · decide +kernel
  · intro v hv
    have hvalue : joined (values [("Content-Length", "2")] "content-length") = some "2" := by
      decide +kernel
    obtain rfl : v = "2" := Option.some.inj (hv.symm.trans hvalue)
    decide +kernel
  · decide +kernel

theorem backend_headers_leak : ∃ s result,
    answered (greeting [("Connection", "keep-alive"), ("X-Request-Id", "b7")]) = some s ∧
      s.stage = .done result ∧
      ¬Integrity "r1" (greeting [("Connection", "keep-alive"), ("X-Request-Id", "b7")]) result := by
  refine ⟨_, passedOn (callOf users (getPath "/users/42") usersRoute)
    (plainBody.response (greeting [("Connection", "keep-alive"), ("X-Request-Id", "b7")])),
    rfl, rfl, fun h => ?_⟩
  exact (stripped_iff plainBody (callOf users (getPath "/users/42") usersRoute) _).mp h.stripped
    ("Connection", "keep-alive") List.mem_cons_self (by decide +kernel)

end Sentinel.ResponseIntegrity
