import Sentinel.StageGating
import Sentinel.Tally

namespace Sentinel.Quota

open Runs Text Limiter Dispatch Selection Tally StageGating PathFidelity
open Pipeline hiding next step start
open Requests

section

variable (key : String) (policy : TokenBucketPolicy) (t₀ t₁ : ℤ)

/-- One policy on the key, arrivals within a span of time, scripts that never find a later refill
than their own clock reading, and nobody else who writes the bucket. -/
def Metered (w : World) : Requests.Action → Prop
  | .arrive q nowMs => q.rateLimitKey = key →
      q.rateLimitPolicy = policy ∧ t₀ ≤ nowMs ∧ nowMs ≤ t₁
  | .script i _ => ∀ h ∈ w.requests[i]?, ∀ b ∈ w.backing.buckets.get? key,
      h.inbound.rateLimitKey = key → b.lastRefillMs ≤ h.nowMs
  | .redis buckets => buckets.get? key = w.backing.buckets.get? key
  | _ => True

instance (w : World) (a : Requests.Action) : Decidable (Metered key policy t₀ t₁ w a) :=
  match a with
  | .arrive _ _ => inferInstanceAs (Decidable (_ → _ ∧ _ ∧ _))
  | .script _ _ => inferInstanceAs (Decidable (∀ h ∈ _, ∀ b ∈ _, _ → _))
  | .redis _ => inferInstanceAs (Decidable (_ = _))
  | .resume _ _ _ | .write _ _ => inferInstanceAs (Decidable True)

def granted (h : Handled) : Bool := h.pending.any (fun r => r.allowed ≠ 0)

def unanswered (mv : Move) : Bool :=
  match mv.cause with
  | .signal (.reply none) => true
  | _ => false

/-- The request went on without an answer of Redis. -/
def unmetered (h : Handled) : Bool :=
  h.inbound.rateLimitPolicy.failureMode = .failOpen && h.moves.any unanswered

def forwarded (h : Handled) : Bool := h.moves.any (fun mv => anyForward (fun _ => true) mv.events)

def Cleared (h : Handled) : Prop := granted h = true ∨ unmetered h = true

structure Sound (h : Handled) : Prop where
  policy : h.inbound.rateLimitPolicy = policy
  first : t₀ ≤ h.nowMs
  last : h.nowMs ≤ t₁
  past : ∀ route r, h.stage = .acquiring route r → Cleared h
  dispatched : ∀ route r c, h.stage = .dispatching route r c → Cleared h
  forwarded : forwarded h = true → Cleared h

def charged (w : World) : ℕ :=
  w.requests.countP (fun h => h.inbound.rateLimitKey = key && granted h)

/-- After `n` grants, what was granted and what is left in the bucket came from its capacity and the
refills so far. -/
def Solvent (n : ℕ) : Option TokenBucket.Bucket → Prop
  | none => n = 0
  | some b => 0 ≤ b.tokens ∧ b.lastRefillMs ≤ t₁ ∧ policy.cost * (n : ℚ) + b.tokens ≤
      policy.capacity + policy.refillRate * (b.lastRefillMs - t₀) / 1000

end

variable {lib : StringLibrary} {p : GatewayPipeline} {key : String} {policy : TokenBucketPolicy}
  {t₀ t₁ : ℤ} {w w' : World} {h : Handled} {mv : Move}

theorem Cleared.move (hc : Cleared h) : Cleared (h.move mv) := by
  refine hc.imp id (fun hu => ?_)
  simp only [unmetered, Handled.move, List.any_append, Bool.and_eq_true, Bool.or_eq_true] at hu ⊢
  exact ⟨hu.1, .inl hu.2⟩

theorem forwarded_move (hf : forwarded (h.move mv) = true) :
    forwarded h = true ∨ anyForward (fun _ => true) mv.events = true := by
  simpa [forwarded, Handled.move] using hf

theorem cleared_of_reply {reply : Option ScriptReply} (hears : h.hears (.reply reply) = true)
    (ha : (checkTokenBucket h.inbound.rateLimitPolicy reply).allowed = true)
    (hmv : mv.cause = .signal (.reply reply)) : Cleared (h.move mv) := by
  cases reply with
  | some r =>
    left
    have hpending : h.pending = some r := by simpa [Handled.hears] using hears
    simpa [granted, Handled.move, hpending, checkTokenBucket] using ha
  | none =>
    right
    have hopen : h.inbound.rateLimitPolicy.failureMode = .failOpen := by
      simpa [checkTokenBucket, degradedDecision] using ha
    simp [unmetered, Handled.move, hopen, unanswered, hmv]

theorem resume_sound {m : Moment} {signal : Resumption} {s : Stretch} (hs : Sound policy t₀ t₁ h)
    (hears : h.hears signal = true)
    (hst : proceed lib p h.inbound m w.backing.gateway h.stage signal = some s) :
    Sound policy t₀ t₁ (h.move (resumed w signal s)) := by
  have hkept : (s.events = [] ∧ ∀ route r, s.stage ≠ .acquiring route r) ∧
      (∀ route r c, s.stage ≠ .dispatching route r c) ∨ Cleared (h.move (resumed w signal s)) := by
    obtain ⟨route, reply, ⟨hstage, rfl⟩, ⟨-, rfl⟩ | ⟨ha, rfl⟩⟩ | ⟨route, hstage, rfl⟩ |
      ⟨route, r, wake, ⟨hstage, -⟩, -⟩ | ⟨route, r, c, signal', seg, hstage, -, -⟩ :=
      proceed_cases hst
    · exact .inl ⟨⟨rfl, by simp⟩, by simp⟩
    · exact .inr (cleared_of_reply hears ha rfl)
    · exact .inl ⟨⟨rfl, by simp⟩, by simp⟩
    · exact .inr (hs.past route r hstage).move
    · exact .inr (hs.dispatched route r c hstage).move
  obtain ⟨⟨hevents, hacq⟩, hdisp⟩ | hc := hkept
  · refine ⟨hs.policy, hs.first, hs.last, fun route r he => absurd he (hacq route r),
      fun route r c he => absurd he (hdisp route r c), fun hf => ?_⟩
    obtain hf | hf := forwarded_move hf
    · exact (hs.forwarded hf).move
    · simp [resumed, hevents, anyForward] at hf
  · exact ⟨hs.policy, hs.first, hs.last, fun _ _ _ => hc, fun _ _ _ _ => hc, fun _ => hc⟩

theorem script_sound (hs : Sound policy t₀ t₁ h) {route : Router.RouteDefinition}
    (hstage : h.stage = .limiting route) (hpending : h.pending = none) (reply : ScriptReply) :
    Sound policy t₀ t₁ (Handled.move { h with pending := some reply } (scripted w h)) := by
  refine ⟨hs.policy, hs.first, hs.last, by simp [Handled.move, scripted, hstage],
    by simp [Handled.move, scripted, hstage], fun hf => ?_⟩
  obtain hf | hf := forwarded_move hf
  · have hu : unmetered h = true := (hs.forwarded hf).resolve_left (by simp [granted, hpending])
    exact Cleared.move (.inr hu)
  · simp [scripted, anyForward] at hf

theorem step_sound {a : Requests.Action}
    (hall : ∀ h ∈ w.requests, h.inbound.rateLimitKey = key → Sound policy t₀ t₁ h)
    (hstep : Guarded (Metered key policy t₀ t₁) (step lib p) w a w') :
    ∀ h ∈ w'.requests, h.inbound.rateLimitKey = key → Sound policy t₀ t₁ h := by
  obtain ⟨hok, hstep⟩ := hstep
  obtain ⟨q, nowMs, rfl, rfl⟩ | ⟨i, overflow, h, route, rfl, ⟨hi, hstage, hpending⟩, rfl⟩ |
    ⟨i, m, signal, h, s, rfl, ⟨hi, hears, hst⟩, rfl⟩ | ⟨r, status, rfl, rfl⟩ |
    ⟨buckets, rfl, rfl⟩ := step_cases hstep
  · intro h hmem hkey
    obtain hmem | rfl := (List.mem_append.mp hmem).imp_right List.mem_singleton.mp
    · exact hall h hmem hkey
    · obtain ⟨hpolicy, hfirst, hlast⟩ := hok hkey
      have hstage : ∀ route r c, handle lib p q ≠ .acquiring route r ∧
          handle lib p q ≠ .dispatching route r c := by
        obtain ⟨-, he⟩ | ⟨-, ⟨-, he⟩ | ⟨route, -, he⟩⟩ := handle_cases lib p q
        all_goals simp [he]
      refine ⟨hpolicy, hfirst, hlast, fun route r he => ?_, fun route r c he => ?_, fun hf => ?_⟩
      · exact absurd he (hstage route r (.raised .cancelled)).1
      · exact absurd he (hstage route r c).2
      · simp [forwarded, arrival, anyForward] at hf
  · exact forall_mem_move hall (fun hkey =>
      script_sound (hall h (List.mem_of_getElem? hi) hkey) hstage hpending _)
  · exact forall_mem_move hall (fun hkey =>
      resume_sound (hall h (List.mem_of_getElem? hi) hkey) hears hst)
  · exact hall
  · exact hall

theorem Solvent.evaluate {n : ℕ} {state : Option TokenBucket.Bucket} {nowMs : ℤ}
    (hs : Solvent policy t₀ t₁ n state) (hc : 0 ≤ policy.capacity) (hr : 0 ≤ policy.refillRate)
    (hfirst : t₀ ≤ nowMs) (hlast : nowMs ≤ t₁)
    (hclock : ∀ b, state = some b → b.lastRefillMs ≤ nowMs) :
    Solvent policy t₀ t₁
      (n + (TokenBucket.evaluate (policy.args nowMs) state).2.allowed.toNat)
      (some (TokenBucket.evaluate (policy.args nowMs) state).1) := by
  have hcapacity : (0 : ℚ) ≤ policy.capacity := by exact_mod_cast hc
  have hpay : (policy.cost : ℚ) *
      ((TokenBucket.evaluate (policy.args nowMs) state).2.allowed.toNat : ℚ) =
      if (TokenBucket.evaluate (policy.args nowMs) state).2.allowed then
        (policy.args nowMs).cost else 0 := by
    cases (TokenBucket.evaluate (policy.args nowMs) state).2.allowed <;>
      simp [TokenBucketPolicy.args]
  have htokens := TokenBucket.evaluate_tokens (policy.args nowMs) state
  have hrefill : 0 ≤ TokenBucket.refilled (policy.args nowMs) state ∧ policy.cost * (n : ℚ) +
      TokenBucket.refilled (policy.args nowMs) state ≤
        policy.capacity + policy.refillRate * (nowMs - t₀) / 1000 := by
    cases state with
    | none =>
      obtain rfl : n = 0 := hs
      have hgain : 0 ≤ policy.refillRate * ((nowMs : ℚ) - t₀) / 1000 :=
        div_nonneg (mul_nonneg hr (by exact_mod_cast sub_nonneg.mpr hfirst)) (by norm_num)
      rw [TokenBucket.refilled_fresh]
      refine ⟨hcapacity, ?_⟩
      simp only [TokenBucketPolicy.args, Nat.cast_zero, mul_zero]
      linarith
    | some b =>
      obtain ⟨hb, -, hcredit⟩ := hs
      refine ⟨TokenBucket.refilled_some_nonneg hcapacity hr hb, ?_⟩
      have hle : TokenBucket.refilled (policy.args nowMs) (some b) ≤
          b.tokens + policy.refillRate * (nowMs - b.lastRefillMs) / 1000 := by
        rw [TokenBucket.refilled_some]
        refine (min_le_right _ _).trans (le_of_eq ?_)
        simp only [TokenBucketPolicy.args]
        rw [max_eq_right (sub_nonneg.mpr (hclock b rfl))]
        ring
      have hspan : policy.refillRate * ((nowMs : ℚ) - t₀) / 1000 =
          policy.refillRate * (b.lastRefillMs - t₀) / 1000 +
            policy.refillRate * (nowMs - b.lastRefillMs) / 1000 := by ring
      linarith
  refine ⟨TokenBucket.evaluate_tokens_nonneg hrefill.1, ?_, ?_⟩
  · rw [TokenBucket.evaluate_lastRefillMs]
    exact Int.cast_le.mpr hlast
  · rw [TokenBucket.evaluate_lastRefillMs, htokens, Nat.cast_add, mul_add, hpay]
    have hnow : (policy.args nowMs).nowMs = nowMs := rfl
    rw [hnow]
    linarith [hrefill.2]

theorem Solvent.grants_le {n : ℕ} {state : Option TokenBucket.Bucket}
    (hs : Solvent policy t₀ t₁ n state) (hc : 0 ≤ policy.capacity) (hr : 0 ≤ policy.refillRate)
    (hspan : t₀ ≤ t₁) :
    policy.cost * (n : ℚ) ≤ policy.capacity + policy.refillRate * (t₁ - t₀) / 1000 := by
  have hcapacity : (0 : ℚ) ≤ policy.capacity := by exact_mod_cast hc
  cases state with
  | none =>
    obtain rfl : n = 0 := hs
    have hgain : 0 ≤ policy.refillRate * ((t₁ : ℚ) - t₀) / 1000 :=
      div_nonneg (mul_nonneg hr (by exact_mod_cast sub_nonneg.mpr hspan)) (by norm_num)
    simp only [Nat.cast_zero, mul_zero]
    linarith
  | some b =>
    obtain ⟨htokens, hlast, hcredit⟩ := hs
    have hmore : policy.refillRate * (b.lastRefillMs - t₀) ≤ policy.refillRate * ((t₁ : ℚ) - t₀) :=
      mul_le_mul_of_nonneg_left (by linarith) hr
    linarith

theorem charged_set (key : String) {i : ℕ} (hi : w.requests[i]? = some h) (h' : Handled)
    (hkey : h'.inbound = h.inbound) :
    (w.requests.set i h').countP (fun h => h.inbound.rateLimitKey = key && granted h) +
        (h.inbound.rateLimitKey = key && granted h).toNat =
      charged key w + (h.inbound.rateLimitKey = key && granted h').toNat := by
  have hcount := countP_set_add hi h' (fun h => h.inbound.rateLimitKey = key && granted h)
  rw [hkey] at hcount
  exact hcount

theorem granted_script (overflow : ℤ) (reply : TokenBucket.Reply) (h : Handled) (mv : Move) :
    granted (Handled.move { h with pending := some (.of overflow reply) } mv) = reply.allowed := by
  cases ha : reply.allowed <;> simp [granted, Handled.move, ScriptReply.of, ha]

def Balanced (key : String) (policy : TokenBucketPolicy) (t₀ t₁ : ℤ) (w : World) : Prop :=
  Solvent policy t₀ t₁ (charged key w) (w.backing.buckets.get? key)

theorem step_balanced {a : Requests.Action} (hc : 0 ≤ policy.capacity)
    (hr : 0 ≤ policy.refillRate)
    (hall : ∀ h ∈ w.requests, h.inbound.rateLimitKey = key → Sound policy t₀ t₁ h)
    (hb : Balanced key policy t₀ t₁ w)
    (hstep : Guarded (Metered key policy t₀ t₁) (step lib p) w a w') :
    Balanced key policy t₀ t₁ w' := by
  obtain ⟨hok, hstep⟩ := hstep
  obtain ⟨q, nowMs, rfl, rfl⟩ | ⟨i, overflow, h, route, rfl, ⟨hi, -, hpending⟩, rfl⟩ |
    ⟨i, m, signal, h, s, rfl, ⟨hi, -, -⟩, rfl⟩ | ⟨r, status, rfl, rfl⟩ | ⟨buckets, rfl, rfl⟩ :=
    step_cases hstep
  · simpa [Balanced, charged, granted] using hb
  · let h' : Handled := Handled.move { h with
      pending := some (.of overflow (h.evaluate w.backing.buckets).2) } (scripted w h)
    have hset := charged_set key hi h' rfl
    have hnew : granted h' = (h.evaluate w.backing.buckets).2.allowed := granted_script _ _ _ _
    have hold : granted h = false := by simp [granted, hpending]
    rw [hnew, hold, Bool.and_false, Bool.toNat_false, Nat.add_zero] at hset
    change Solvent policy t₀ t₁ (charged key { w with requests := w.requests.set i h' })
      ((w.backing.buckets.set h.inbound.rateLimitKey (h.evaluate w.backing.buckets).1).get? key)
    rw [charged, hset, Dict.get?_set]
    by_cases hkey : h.inbound.rateLimitKey = key
    · have hs := hall h (List.mem_of_getElem? hi) hkey
      have heval := hb.evaluate hc hr hs.first hs.last (fun b hstate => hok h hi b hstate hkey)
      simpa [Handled.evaluate, hs.policy, hkey] using heval
    · have hsame : Solvent policy t₀ t₁ (charged key w) (w.backing.buckets.get? key) := hb
      simpa [hkey, Ne.symm hkey] using hsame
  · have hset := charged_set key hi (h.move (resumed w signal s)) rfl
    have hsame : granted (h.move (resumed w signal s)) = granted h := rfl
    rw [hsame] at hset
    have hcount : charged key (w.move i h (resumed w signal s)) = charged key w :=
      Nat.add_right_cancel hset
    rw [Balanced, hcount]
    exact hb
  · exact hb
  · rw [Balanced, show _ = w.backing.buckets.get? key from hok]
    exact hb

/-- However replies are lost and requests interleave, the requests of a key that reach a backend are
no more than the bucket grants in the time they span, but for those that `FAIL_OPEN` let pass
without an answer. -/
theorem forwards_within_quota {lib : StringLibrary} {p : GatewayPipeline} {key : String}
    {policy : TokenBucketPolicy} {t₀ t₁ : ℤ} {fleet : Router.Fleet} {backing : Backing} {w : World}
    (hc : 0 ≤ policy.capacity) (hr : 0 ≤ policy.refillRate) (hcost : 0 ≤ policy.cost)
    (hspan : t₀ ≤ t₁) (hfresh : backing.buckets.get? key = none)
    (h : Reaches (Guarded (Metered key policy t₀ t₁) (step lib p)) (start fleet backing) w) :
    policy.cost * (w.requests.countP (fun h => h.inbound.rateLimitKey = key && forwarded h) : ℚ) ≤
      policy.capacity + policy.refillRate * (t₁ - t₀) / 1000 +
        policy.cost *
          (w.requests.countP (fun h => h.inbound.rateLimitKey = key && unmetered h) : ℚ) := by
  have hinv := h.invariant (I := fun w =>
      (∀ h ∈ w.requests, h.inbound.rateLimitKey = key → Sound policy t₀ t₁ h) ∧
        Balanced key policy t₀ t₁ w)
    (fun w a w' hi hstep => ⟨step_sound hi.1 hstep, step_balanced hc hr hi.1 hi.2 hstep⟩)
    ⟨by simp [start], by simp [Balanced, start, charged, hfresh, Solvent]⟩
  obtain ⟨hall, hb⟩ := hinv
  have hcount : w.requests.countP (fun h => h.inbound.rateLimitKey = key && forwarded h) ≤
      charged key w +
        w.requests.countP (fun h => h.inbound.rateLimitKey = key && unmetered h) := by
    refine countP_le_countP_add (fun h hmem hf => ?_)
    simp only [Bool.and_eq_true, decide_eq_true_eq] at hf ⊢
    exact ((hall h hmem hf.1).forwarded hf.2).imp (fun hg => ⟨hf.1, hg⟩) (fun hu => ⟨hf.1, hu⟩)
  have hscaled : policy.cost *
      (w.requests.countP (fun h => h.inbound.rateLimitKey = key && forwarded h) : ℚ) ≤
      policy.cost * (charged key w : ℚ) + policy.cost *
        (w.requests.countP (fun h => h.inbound.rateLimitKey = key && unmetered h) : ℚ) := by
    rw [← mul_add]
    exact mul_le_mul_of_nonneg_left (by exact_mod_cast hcount) (by exact_mod_cast hcost)
  linarith [hb.grants_le hc hr hspan]

def lostReply : List Requests.Action :=
  StageGating.forwarded 0 99 ++ [.arrive (getPath "/users/42") 0, .script 1 0,
    .resume 1 (instant 0) (.reply none)] ++ StageGating.forwarded 2 97

theorem forwards_within_quota_users : ∃ w, Reaches (Guarded
      (Metered "rl:apikey:k1" { capacity := 100, refillRate := 100 } 0 10) (step posix users))
      (start usersFleet idleBacking) w ∧
    w.requests.countP (fun h => h.inbound.rateLimitKey = "rl:apikey:k1" && forwarded h) = 2 ∧
    charged "rl:apikey:k1" w = 3 ∧
    (w.requests.countP (fun h => h.inbound.rateLimitKey = "rl:apikey:k1" && forwarded h) : ℚ) ≤
      101 := by
  obtain ⟨w, hw, hcheck⟩ := Reaches.of_guarded_check
    (Metered "rl:apikey:k1" { capacity := 100, refillRate := 100 } 0 10)
    (Requests.next posix users)
    (fun w => w.requests.countP (fun h =>
        h.inbound.rateLimitKey = "rl:apikey:k1" && forwarded h) = 2 ∧
      charged "rl:apikey:k1" w = 3 ∧ w.requests.countP (fun h =>
        h.inbound.rateLimitKey = "rl:apikey:k1" && unmetered h) = 0)
    (start usersFleet idleBacking) lostReply (by decide +kernel)
  obtain ⟨hforwarded, hcharged, hunmetered⟩ := of_decide_eq_true hcheck
  have hquota := forwards_within_quota (by norm_num) (by norm_num) (by norm_num) (by norm_num)
    rfl hw
  rw [hunmetered] at hquota
  exact ⟨w, hw, hforwarded, hcharged, by norm_num at hquota ⊢; linarith⟩

end Sentinel.Quota
