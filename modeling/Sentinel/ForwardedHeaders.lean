import Sentinel.Dispatch
import Mathlib.Data.String.Basic

namespace Sentinel.ForwardedHeaders

open Dispatch

def hopByHopHeaders : List String :=
  ["connection", "keep-alive", "proxy-authenticate", "proxy-authorization", "te", "trailers",
    "transfer-encoding", "upgrade", "host"]

/-- The mapping that httpx makes of a list of header fields: names are lower-cased, and the values
under one name are joined. -/
def headersOf (fields : List (String × String)) : Dict String String :=
  fields.foldl (fun d e => d.set e.1.toLower
    (match d.get? e.1.toLower with
      | some v => v ++ ", " ++ e.2
      | none => e.2)) .empty

/-- `httpx.Headers(m).items()`. -/
def headerItems (m : Dict String String) : Dict String String := headersOf m.items

def cleanHeaders (headers : Dict String String) : Dict String String :=
  headers.filter (fun k => k.toLower ∉ hopByHopHeaders)

/-- The headers that `forward` hands to httpx. -/
def outboundHeaders (f : Forward) : Dict String String :=
  (((cleanHeaders (headerItems f.headers)).set "X-Request-ID" f.requestId).set
    "X-Sentinel-Instance" f.instanceId |>.set "X-Forwarded-For" f.clientIp).set
    "X-Forwarded-Proto" "https"

def own (f : Forward) : List (String × String) :=
  [("X-Forwarded-Proto", "https"), ("X-Forwarded-For", f.clientIp),
    ("X-Sentinel-Instance", f.instanceId), ("X-Request-ID", f.requestId)]

def ownNames : List String :=
  ["x-forwarded-proto", "x-forwarded-for", "x-sentinel-instance", "x-request-id"]

def values (l : List (String × String)) (name : String) : List String :=
  (l.filter (fun e => e.1.toLower = name)).map Prod.snd

def joined : List String → Option String
  | [] => none
  | v :: vs => some (vs.foldl (fun a b => a ++ ", " ++ b) v)

/-- What a backend may rely on, with header names compared without regard to case. -/
structure Integrity (f : Forward) : Prop where
  stripped : ∀ e ∈ (outboundHeaders f).items, e.1.toLower ∉ hopByHopHeaders
  stamped : ∀ s ∈ own f, ∀ e, e ∈ (outboundHeaders f).items ∧ e.1.toLower = s.1.toLower ↔ e = s
  kept : ∀ name, name ∉ hopByHopHeaders → name ∉ ownNames → ∀ e,
    e ∈ (outboundHeaders f).items ∧ e.1.toLower = name ↔
      ∃ v, joined (values f.headers.items name) = some v ∧ e = (name, v)

theorem toLower_char (c : Char) : c.toLower.toLower = c.toLower := by
  unfold Char.toLower
  by_cases hupper : 'A'.val ≤ c.val ∧ c.val ≤ 'Z'.val
  · have hlower : ¬('A'.val ≤ c.val + ('a'.val - 'A'.val) ∧
        c.val + ('a'.val - 'A'.val) ≤ 'Z'.val) := by
      simp only [UInt32.le_iff_toNat_le, UInt32.toNat_add, seval] at hupper ⊢
      omega
    simp only [ge_iff_le, hupper, hlower, and_self, ↓reduceDIte]
  · simp only [ge_iff_le, hupper, ↓reduceDIte]

theorem toLower_toLower (s : String) : s.toLower.toLower = s.toLower := by
  change (s.map Char.toLower).map Char.toLower = s.map Char.toLower
  rw [String.map_map]
  congr 1
  funext c
  exact toLower_char c

theorem values_singleton (k v name : String) :
    values [(k, v)] name = if k.toLower = name then [v] else [] := by
  by_cases h : k.toLower = name <;> simp [values, h]

theorem joined_append (vs : List String) (v : String) :
    joined (vs ++ [v]) = some (match joined vs with
      | some w => w ++ ", " ++ v
      | none => v) := by
  cases vs with
  | nil => rfl
  | cons w vs => simp [joined]

theorem joined_eq_none_iff {vs : List String} : joined vs = none ↔ vs = [] := by
  cases vs <;> simp [joined]

theorem headersOf_get? (fields : List (String × String)) (name : String) :
    (headersOf fields).get? name = joined (values fields name) := by
  unfold headersOf
  induction fields using List.reverseRecOn with
  | nil => rfl
  | append_singleton l e ih =>
    rw [List.foldl_append, List.foldl_cons, List.foldl_nil, Dict.get?_set]
    by_cases h : e.1.toLower = name
    · subst h
      simp only [values, List.filter_append, List.map_append] at ih ⊢
      simp [joined_append, ih]
    · simp only [values, List.filter_append, List.map_append] at ih ⊢
      simp [h, Ne.symm h, ih]

theorem headerItems_get? (m : Dict String String) (name : String) :
    (headerItems m).get? name = joined (values m.items name) := headersOf_get? m.items name

theorem outboundHeaders_get? (f : Forward) (k : String) :
    (outboundHeaders f).get? k = (Dict.lookup k (own f)).or
      (if k.toLower ∈ hopByHopHeaders then none else joined (values f.headers.items k)) := by
  have hown : outboundHeaders f = (own f).foldr (fun e d => d.set e.1 e.2)
      (cleanHeaders (headerItems f.headers)) := rfl
  rw [hown, Dict.get?_foldr_set, cleanHeaders, Dict.get?_filter, headerItems_get?]
  simp

theorem lookup_own (f : Forward) {k v : String} :
    Dict.lookup k (own f) = some v ↔ (k, v) ∈ own f :=
  ⟨Dict.mem_of_lookup_eq_some, Dict.lookup_eq_some_of_mem (by simp [own])⟩

theorem map_own (f : Forward) : (own f).map (fun s => s.1.toLower) = ownNames := by
  have hnames : ["X-Forwarded-Proto", "X-Forwarded-For", "X-Sentinel-Instance",
      "X-Request-ID"].map String.toLower = ownNames := by decide +kernel
  exact hnames

theorem toLower_own {f : Forward} {s : String × String} (hs : s ∈ own f) :
    s.1.toLower ∈ ownNames := by
  rw [← map_own f]
  exact List.mem_map_of_mem hs

theorem exists_own (f : Forward) {name : String} (h : name ∈ ownNames) :
    ∃ s ∈ own f, s.1.toLower = name := by
  rw [← map_own f] at h
  exact List.mem_map.mp h

theorem eq_of_toLower_own {f : Forward} {s s' : String × String} (hs : s ∈ own f)
    (hs' : s' ∈ own f) (h : s.1.toLower = s'.1.toLower) : s = s' := by
  have hnodup : ((own f).map (fun s => s.1.toLower)).Nodup := by
    rw [map_own]
    decide +kernel
  exact List.inj_on_of_nodup_map hnodup hs hs' h

theorem toLower_own_ne {f : Forward} {s : String × String} (hs : s ∈ own f) :
    s.1.toLower ≠ s.1 := by
  have hnames : ∀ name ∈ ["X-Forwarded-Proto", "X-Forwarded-For", "X-Sentinel-Instance",
      "X-Request-ID"], name.toLower ≠ name := by decide +kernel
  exact hnames s.1 (List.mem_map_of_mem (f := Prod.fst) hs)

theorem exists_key {f : Forward} {name v : String}
    (h : joined (values f.headers.items name) = some v) :
    ∃ k ∈ f.headers.keys, k.toLower = name := by
  have hne : values f.headers.items name ≠ [] := by
    intro he
    rw [he] at h
    cases h
  obtain ⟨e, he⟩ := List.exists_mem_of_ne_nil _ hne
  obtain ⟨e', he', -⟩ := List.mem_map.mp he
  obtain ⟨hin, hname⟩ := List.mem_filter.mp he'
  exact ⟨e'.1, List.mem_map_of_mem hin, by simpa using hname⟩

theorem joined_ne_none {f : Forward} {k : String} (hk : k ∈ f.headers.keys) :
    joined (values f.headers.items k.toLower) ≠ none := by
  obtain ⟨e, he, rfl⟩ := List.mem_map.mp hk
  rw [Ne, joined_eq_none_iff]
  apply List.ne_nil_of_mem
  exact List.mem_map_of_mem (List.mem_filter.mpr ⟨he, by simp⟩)

theorem mem_outboundHeaders {f : Forward} {e : String × String} :
    e ∈ (outboundHeaders f).items ↔ e ∈ own f ∨
      (e.1.toLower = e.1 ∧ e.1 ∉ hopByHopHeaders ∧
        joined (values f.headers.items e.1) = some e.2) := by
  obtain ⟨k, v⟩ := e
  rw [Dict.mem_items_iff, outboundHeaders_get?, Option.or_eq_some_iff, lookup_own]
  apply or_congr_right
  constructor
  · rintro ⟨hnone, hsome⟩
    split_ifs at hsome with hhop
    obtain ⟨k', -, rfl⟩ := exists_key hsome
    have hlower := toLower_toLower k'
    exact ⟨hlower, hlower ▸ hhop, hsome⟩
  · rintro ⟨hlower, hhop, hsome⟩
    refine ⟨?_, by rwa [if_neg (hlower.symm ▸ hhop)]⟩
    rw [Option.eq_none_iff_forall_not_mem]
    intro w hw
    exact toLower_own_ne ((lookup_own f).mp hw) hlower

theorem ownNames_spec {name : String} (h : name ∈ ownNames) :
    name.toLower = name ∧ name ∉ hopByHopHeaders := by
  have hall : ∀ name ∈ ownNames, name.toLower = name ∧ name ∉ hopByHopHeaders := by
    decide +kernel
  exact hall name h

section

variable (f : Forward)

theorem outbound_stripped : ∀ e ∈ (outboundHeaders f).items, e.1.toLower ∉ hopByHopHeaders := by
  intro e he
  obtain hown | ⟨hlower, hhop, -⟩ := mem_outboundHeaders.mp he
  · exact (ownNames_spec (toLower_own hown)).2
  · rwa [hlower]

theorem outbound_kept (name : String) (hhop : name ∉ hopByHopHeaders) (hname : name ∉ ownNames)
    (e : String × String) :
    e ∈ (outboundHeaders f).items ∧ e.1.toLower = name ↔
      ∃ v, joined (values f.headers.items name) = some v ∧ e = (name, v) := by
  rw [mem_outboundHeaders]
  constructor
  · rintro ⟨hown | ⟨hlower, -, hsome⟩, rfl⟩
    · exact absurd (toLower_own hown) hname
    · exact ⟨e.2, by rwa [hlower], by rw [hlower]⟩
  · rintro ⟨v, hv, rfl⟩
    obtain ⟨k, -, rfl⟩ := exists_key hv
    exact ⟨.inr ⟨toLower_toLower k, hhop, hv⟩, toLower_toLower k⟩

theorem outbound_stamped_iff :
    (∀ s ∈ own f, ∀ e, e ∈ (outboundHeaders f).items ∧ e.1.toLower = s.1.toLower ↔ e = s) ↔
      ∀ k ∈ f.headers.keys, k.toLower ∉ ownNames := by
  constructor
  · intro h k hk hname
    obtain ⟨s, hs, hsame⟩ := exists_own f hname
    obtain ⟨v, hv⟩ := Option.ne_none_iff_exists'.mp (joined_ne_none hk)
    have hin : (k.toLower, v) ∈ (outboundHeaders f).items :=
      mem_outboundHeaders.mpr (.inr ⟨toLower_toLower k, (ownNames_spec hname).2, hv⟩)
    obtain rfl := (h s hs (k.toLower, v)).mp ⟨hin, (toLower_toLower k).trans hsame.symm⟩
    exact toLower_own_ne hs hsame
  · intro h s hs e
    constructor
    · rintro ⟨he, hsame⟩
      obtain hown | ⟨hlower, -, hsome⟩ := mem_outboundHeaders.mp he
      · exact eq_of_toLower_own hown hs hsame
      · obtain ⟨k, hk, hke⟩ := exists_key hsome
        have hname := toLower_own hs
        rw [← hsame, hlower, ← hke] at hname
        exact absurd hname (h k hk)
    · rintro rfl
      exact ⟨mem_outboundHeaders.mpr (.inl hs), rfl⟩

theorem outbound_eq_iff (h : Dict String String)
    (hsame : ∀ name ∉ ownNames, values h.items name = values f.headers.items name) :
    (∀ k, (outboundHeaders { f with headers := h }).get? k = (outboundHeaders f).get? k) ↔
      ∀ name ∈ ownNames, joined (values h.items name) = joined (values f.headers.items name) := by
  simp only [outboundHeaders_get?]
  constructor
  · intro hget name hname
    obtain ⟨hlower, hhop⟩ := ownNames_spec hname
    have hlookup : ∀ f' : Forward, Dict.lookup name (own f') = none := by
      intro f'
      rw [Option.eq_none_iff_forall_not_mem]
      intro v hv
      exact toLower_own_ne ((lookup_own f').mp hv) hlower
    have hk := hget name
    rwa [hlookup, hlookup, hlower, if_neg hhop, if_neg hhop] at hk
  · intro hown k
    have hjoined : joined (values h.items k) = joined (values f.headers.items k) := by
      by_cases hk : k ∈ ownNames
      · exact hown k hk
      · rw [hsame k hk]
    rw [hjoined]
    rfl

end

/-- The outbound headers are the gateway's own exactly when the client names none of them in any
spelling; and what a client does say under these names always reaches the backend. -/
theorem integrity_iff_unforged (f : Forward) :
    (Integrity f ↔ ∀ k ∈ f.headers.keys, k.toLower ∉ ownNames) ∧
    ∀ h : Dict String String,
      (∀ name ∉ ownNames, values h.items name = values f.headers.items name) →
      ((∀ k, (outboundHeaders { f with headers := h }).get? k = (outboundHeaders f).get? k) ↔
        ∀ name ∈ ownNames,
          joined (values h.items name) = joined (values f.headers.items name)) := by
  refine ⟨⟨fun h => (outbound_stamped_iff f).mp h.stamped, fun h => ?_⟩, outbound_eq_iff f⟩
  exact ⟨outbound_stripped f, (outbound_stamped_iff f).mpr h, outbound_kept f⟩

def plain : Forward := forwardOf getUsers (usersFleet.get 0) 2

def sent (headers : Dict String String) : Forward := { plain with headers := headers }

theorem integrity_of_accept : Integrity (sent (Dict.empty.set "Accept" "*/*")) ∧
    ∀ k, (outboundHeaders (sent (Dict.empty.set "accept" "*/*"))).get? k =
      (outboundHeaders (sent (Dict.empty.set "Accept" "*/*"))).get? k := by
  have h := integrity_iff_unforged (sent (Dict.empty.set "Accept" "*/*"))
  have hwith : ∀ h h' : Dict String String, { sent h with headers := h' } = sent h' :=
    fun _ _ => rfl
  have hlower : "accept".toLower = "accept" ∧ "Accept".toLower = "accept" := by decide +kernel
  have hsame : ∀ name, values [("accept", "*/*")] name = values [("Accept", "*/*")] name := by
    intro name
    rw [values_singleton, values_singleton, hlower.1, hlower.2]
  have hget := (h.2 (Dict.empty.set "accept" "*/*") fun name _ => hsame name).mpr
    fun name _ => congrArg joined (hsame name)
  rw [hwith] at hget
  exact ⟨h.1.mpr (by decide +kernel), hget⟩

/-- A client's own `x-forwarded-for` reaches the backend beside the gateway's. -/
theorem forged_client_ip :
    ¬Integrity (sent (Dict.empty.set "x-forwarded-for" "127.0.0.1")) ∧
    ¬∀ k, (outboundHeaders (sent (Dict.empty.set "x-forwarded-for" "127.0.0.1"))).get? k =
      (outboundHeaders (sent .empty)).get? k := by
  refine ⟨fun h => ?_, fun h => ?_⟩
  · exact (outbound_stamped_iff _).mp h.stamped "x-forwarded-for" (by decide +kernel)
      (by decide +kernel)
  · have hx := h "x-forwarded-for"
    revert hx
    decide +kernel

end Sentinel.ForwardedHeaders
