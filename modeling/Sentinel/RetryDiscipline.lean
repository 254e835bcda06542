import Sentinel.BreakerAccounting

namespace Sentinel.RetryDiscipline

open Runs Text Breaker Retry Dispatch BreakerAccounting

def run (lib : StringLibrary) (t : Task) (is : List (Shared × Moment × Signal)) : Option Task :=
  is.foldlM (next lib) t

def isForward : Event → Bool
  | .forward _ _ => true
  | _ => false

def forwards (es : List Event) : ℕ := es.countP isForward

def deadlineOf (d : Call) (m : Moment) : DeadlineTracker :=
  .new (m.clock 0) d.retryPolicy.totalDeadlineMs

/-- What the loop asks for before it follows attempt `n` by another one. -/
structure Retryable (lib : StringLibrary) (d : Call) (deadline : DeadlineTracker) (n : ℕ)
    (sh : Shared) (m : Moment) (o : Outcome) : Prop where
  kind : ∃ kind, failureOf o = some kind ∧ kind ∈ d.retryPolicy.retryableFailures
  closed : (failureRead d m sh).state ≠ .open
  method : lib.upper d.method ∈ idempotentMethods ∨ d.retryPolicy.allowNonIdempotent = true
  budget : deadline.hasBudgetFor (m.clock 2)
    (computeBackoffMs m.draw n d.retryPolicy.baseBackoffMs) = true

/-- Forward `k` (from 0) was out when resumption `2 * k` brought its outcome, a retryable one. -/
def Retried (lib : StringLibrary) (d : Call) (m : Moment) (sh : Shared)
    (is : List (Shared × Moment × Signal)) (k : ℕ) : Prop :=
  ∃ t l sh' m' o, run lib (Task.start d m sh) (is.take (2 * k)) = some t ∧
    t.control = .forwarding l ∧ forwards t.trace = k + 1 ∧
    is[2 * k]? = some (sh', m', .outcome o) ∧ Retryable lib d (deadlineOf d m) (k + 1) sh' m' o

theorem run_append (lib : StringLibrary) (t : Task) (is : List (Shared × Moment × Signal))
    (i : Shared × Moment × Signal) :
    run lib t (is ++ [i]) = (run lib t is).bind (fun t => next lib t i) := by
  rw [run, List.foldlM_append, run]
  congr 1
  funext t
  simp

theorem Retried.append {lib : StringLibrary} {d : Call} {m : Moment} {sh : Shared}
    {is : List (Shared × Moment × Signal)} {k : ℕ} (h : Retried lib d m sh is k)
    (i : Shared × Moment × Signal) : Retried lib d m sh (is ++ [i]) k := by
  obtain ⟨t, l, sh', m', o, hrun, hc, hf, ho, hr⟩ := h
  have hlt : 2 * k < is.length := (List.getElem?_eq_some_iff.mp ho).1
  refine ⟨t, l, sh', m', o, ?_, hc, hf, ?_, hr⟩
  · rwa [List.take_append_of_le_length hlt.le]
  · rwa [List.getElem?_append_left hlt]

@[simp] theorem forwards_append (es es' : List Event) :
    forwards (es ++ es') = forwards es + forwards es' := List.countP_append

theorem forwards_recordFailure (sh : Shared) (serviceId : String) (clock : ℚ) :
    forwards (sh.recordFailure serviceId clock).2.1 = 0 := by
  rw [forwards, List.countP_eq_zero]
  intro e hmem
  cases e with
  | forward clock' f => exact absurd hmem (recordFailure_no_forward sh serviceId clock clock' f)
  | beforeRequest | received | recordSuccess | recordFailure | opened | sleep => simp [isForward]

theorem isRetryable_spec {lib : StringLibrary} {method : String} {kind : FailureKind}
    {policy : RetryPolicy} {circuitIsOpen : Bool}
    (h : isRetryable lib method kind policy circuitIsOpen = true) :
    circuitIsOpen = false ∧ kind ∈ policy.retryableFailures ∧
      (lib.upper method ∈ idempotentMethods ∨ policy.allowNonIdempotent = true) := by
  unfold isRetryable at h
  split_ifs at h with hopen hkind hmethod
  refine ⟨by simpa using hopen, hkind, ?_⟩
  by_cases hm : lib.upper method ∈ idempotentMethods
  · exact .inl hm
  · exact .inr (by simpa [hm] using hmethod)

theorem attempt_forwards (d : Call) (m : Moment) (l : Locals) (sh : Shared) :
    (forwards (attempt d m l sh).events = 0 ∧ left (attempt d m l sh).control = true) ∨
    ((l.attempt : ℤ) < d.retryPolicy.maxAttempts ∧ 0 < l.deadline.remainingSeconds (m.clock 2) ∧
      forwards (attempt d m l sh).events = 1 ∧
      (attempt d m l sh).control = .forwarding { l with attempt := l.attempt + 1 }) := by
  obtain ⟨-, h⟩ | ⟨e, -, h⟩ | ⟨-, sel, clock, r, -, h⟩ | ⟨-, sel, ref, ⟨hmax, -, hpos⟩, h⟩ :=
    attempt_cases d m l sh
  · rw [h]
    exact .inl ⟨rfl, rfl⟩
  · rw [h]
    exact .inl ⟨rfl, rfl⟩
  · rw [h]
    refine .inl ⟨?_, ?_⟩
    · have hrecord := forwards_recordFailure (admitted d m sh sel) d.serviceId clock
      simpa [forwards, isForward] using hrecord
    · cases ((admitted d m sh sel).recordFailure d.serviceId clock).2.2 <;> rfl
  · rw [h]
    exact .inr ⟨hmax, hpos, rfl, rfl⟩

theorem received_forwards (lib : StringLibrary) (d : Call) (m : Moment) (l : Locals) (o : Outcome)
    (sh : Shared) :
    forwards (received lib d m l o sh).events = 0 ∧
    ((left (received lib d m l o sh).control = true ∧
      ∀ r, o = .response r → r.statusCode < 500 →
        (received lib d m l o sh).control = .returned (passedOn d r)) ∨
    (∃ l', (received lib d m l o sh).control = .sleeping l' ∧ l'.attempt = l.attempt ∧
      l'.deadline = l.deadline ∧ Retryable lib d l.deadline l.attempt sh m o ∧
      ∀ r, o = .response r → 500 ≤ r.statusCode)) := by
  have hrecord := forwards_recordFailure sh d.serviceId (m.clock 0)
  obtain ⟨r, rfl, -, h⟩ | ⟨-, hs, l', kind, ⟨hattempt, hdeadline, hkind⟩, h⟩ | ⟨ho, c, hc, h⟩ :=
    received_cases lib d m l sh o
  · rw [h]
    refine ⟨rfl, .inl ⟨rfl, fun r' hr' _ => ?_⟩⟩
    cases hr'
    rfl
  · have hlow : ∀ (c : Control) r, o = .response r → r.statusCode < 500 →
        c = .returned (passedOn d r) :=
      fun c r hr hlt => absurd hlt (not_lt.mpr (hs r hr))
    rw [h]
    obtain ⟨e, h⟩ | h | ⟨b, rfl, hretry, -, hbudget, h⟩ := failed_cases lib d m l' sh o kind
    · rw [h]
      exact ⟨by simpa [forwards, isForward] using hrecord, .inl ⟨rfl, hlow _⟩⟩
    · rw [h]
      exact ⟨by simpa [forwards, isForward] using hrecord, .inl ⟨rfl, hlow _⟩⟩
    · obtain ⟨hopen, hin, hmethod⟩ := isRetryable_spec hretry
      rw [hattempt, hdeadline] at hbudget
      rw [h]
      refine ⟨by simpa [forwards, isForward] using hrecord, .inr ⟨l', rfl, hattempt, hdeadline,
        ⟨⟨kind, hkind, hin⟩, of_decide_eq_false hopen, hmethod, hbudget⟩, hs⟩⟩
  · rw [h]
    refine ⟨rfl, .inl ⟨?_, fun r hr hlt => ?_⟩⟩
    · obtain ⟨r, rfl⟩ | ⟨e, rfl⟩ := hc <;> rfl
    · subst hr
      simp only [handled, decide_eq_false_iff_not] at ho
      omega

/-- Where a dispatch stands after `is`, in step with the number of its forwards. -/
structure Disciplined (lib : StringLibrary) (d : Call) (m : Moment) (sh : Shared)
    (is : List (Shared × Moment × Signal)) (t : Task) : Prop where
  run : run lib (Task.start d m sh) is = some t
  call : t.call = d
  bounded : (forwards t.trace : ℤ) ≤ max 0 d.retryPolicy.maxAttempts
  retried : ∀ k, k + 1 < forwards t.trace → Retried lib d m sh is k
  forwarding : ∀ l, t.control = .forwarding l → l.deadline = deadlineOf d m ∧
    forwards t.trace = l.attempt ∧ is.length + 2 = 2 * l.attempt
  sleeping : ∀ l, t.control = .sleeping l → l.deadline = deadlineOf d m ∧
    forwards t.trace = l.attempt ∧ Retried lib d m sh is (l.attempt - 1) ∧
    is.length + 1 = 2 * l.attempt
  answered : ∀ i sh' m' r, is[i]? = some (sh', m', .outcome (.response r)) → r.statusCode < 500 →
    i + 1 = is.length ∧ t.control = .returned (passedOn d r)

section

variable {lib : StringLibrary} {d : Call} {m : Moment} {sh : Shared}
  {is : List (Shared × Moment × Signal)} {i : Shared × Moment × Signal} {t t' : Task}

theorem Disciplined.answered_append (h : Disciplined lib d m sh is t)
    (hopen : left t.control = false)
    (hlow : ∀ sh' m' r, i = (sh', m', .outcome (.response r)) → r.statusCode < 500 →
      t'.control = .returned (passedOn d r)) :
    ∀ k sh' m' r, (is ++ [i])[k]? = some (sh', m', .outcome (.response r)) → r.statusCode < 500 →
      k + 1 = (is ++ [i]).length ∧ t'.control = .returned (passedOn d r) := by
  intro k sh' m' r hk hr
  have hlt : k < (is ++ [i]).length := (List.getElem?_eq_some_iff.mp hk).1
  rw [List.length_append, List.length_singleton] at hlt ⊢
  obtain hlt | rfl : k < is.length ∨ k = is.length := by omega
  · rw [List.getElem?_append_left hlt] at hk
    have hdone := (h.answered k sh' m' r hk hr).2
    simp [hdone, left] at hopen
  · rw [List.getElem?_concat_length, Option.some.injEq] at hk
    exact ⟨rfl, hlow sh' m' r hk hr⟩

theorem Disciplined.leave (h : Disciplined lib d m sh is t) (hnext : next lib t i = some t')
    (hcall : t'.call = t.call) (htrace : forwards t'.trace = forwards t.trace)
    (hopen : left t.control = false) (hleft : left t'.control = true)
    (hlow : ∀ sh' m' r, i = (sh', m', .outcome (.response r)) → r.statusCode < 500 →
      t'.control = .returned (passedOn d r)) :
    Disciplined lib d m sh (is ++ [i]) t' where
  run := by rw [run_append, h.run, Option.bind_some, hnext]
  call := hcall.trans h.call
  bounded := htrace ▸ h.bounded
  retried := fun k hk => (h.retried k (htrace ▸ hk)).append i
  forwarding := fun l hc => by simp [hc, left] at hleft
  sleeping := fun l hc => by simp [hc, left] at hleft
  answered := h.answered_append hopen hlow

end

theorem disciplined_start (lib : StringLibrary) (d : Call) (m : Moment) (sh : Shared) :
    Disciplined lib d m sh [] (Task.start d m sh) := by
  obtain ⟨hf, hl⟩ | ⟨hmax, -, hf, hc⟩ := attempt_forwards d m
    { attempt := 0, deadline := deadlineOf d m }
    (sh.setBreaker d.serviceId (sh.breakerFor d.serviceId))
  · have hf' : forwards (Task.start d m sh).trace = 0 := hf
    have hl' : left (Task.start d m sh).control = true := hl
    refine ⟨rfl, rfl, by simp [hf'], by simp [hf'], fun l hc => ?_, fun l hc => ?_, by simp⟩
    · simp [hc, left] at hl'
    · simp [hc, left] at hl'
  · have hf' : forwards (Task.start d m sh).trace = 1 := hf
    have hc' : (Task.start d m sh).control =
        .forwarding { attempt := 1, deadline := deadlineOf d m } := hc
    refine ⟨rfl, rfl, ?_, by simp [hf'], fun l hl => ?_, fun l hl => ?_, by simp⟩
    · rw [hf']
      simp only [Nat.cast_zero] at hmax
      omega
    · obtain rfl : { attempt := 1, deadline := deadlineOf d m } = l := by simpa [hc'] using hl
      exact ⟨rfl, hf', rfl⟩
    · simp [hc'] at hl

section

variable {lib : StringLibrary} {d : Call} {m m' : Moment} {sh sh' : Shared}
  {is : List (Shared × Moment × Signal)} {t t' : Task} {l : Locals} {o : Outcome}

theorem Disciplined.retried_last (h : Disciplined lib d m sh is t) (hc : t.control = .forwarding l)
    (hretry : Retryable lib d l.deadline l.attempt sh' m' o) :
    Retried lib d m sh (is ++ [(sh', m', .outcome o)]) (l.attempt - 1) := by
  obtain ⟨hdeadline, hn, hlen⟩ := h.forwarding l hc
  have hlast : 2 * (l.attempt - 1) = is.length := by omega
  refine ⟨t, l, sh', m', o, ?_, hc, by omega, ?_, ?_⟩
  · rw [hlast, List.take_append_of_le_length le_rfl, List.take_length]
    exact h.run
  · rw [hlast, List.getElem?_concat_length]
  · rw [hdeadline] at hretry
    rwa [Nat.sub_add_cancel (by omega)]

theorem Disciplined.received (h : Disciplined lib d m sh is t) (hc : t.control = .forwarding l)
    (hnext : next lib t (sh', m', .outcome o) = some t')
    (ht' : t' = t.advance (Dispatch.received lib t.call m' l o sh')) :
    Disciplined lib d m sh (is ++ [(sh', m', .outcome o)]) t' := by
  have hcall := h.call
  have hopen : left t.control = false := by
    rw [hc]
    rfl
  obtain ⟨hdeadline, hn, hlen⟩ := h.forwarding l hc
  obtain ⟨hf, ⟨hleft, hlow⟩ | ⟨l', hc', hattempt, hdeadline', hretry, hs⟩⟩ :=
    received_forwards lib t.call m' l o sh'
  · subst ht'
    refine h.leave hnext rfl (by simp [Task.advance, hf]) hopen hleft ?_
    rintro sh'' m'' r ⟨-, -, -, rfl⟩ hr
    rw [← hcall]
    exact hlow r rfl hr
  · have htrace : forwards t'.trace = forwards t.trace := by simp [ht', Task.advance, hf]
    have hcontrol : t'.control = .sleeping l' := by rw [ht', Task.advance, hc']
    rw [hcall] at hretry
    refine ⟨by rw [run_append, h.run, Option.bind_some, hnext], by rw [ht']; exact hcall,
      htrace ▸ h.bounded, fun k hk => (h.retried k (htrace ▸ hk)).append _, fun l'' hl => ?_,
      fun l'' hl => ?_, h.answered_append hopen ?_⟩
    · simp [hcontrol] at hl
    · obtain rfl : l' = l'' := by simpa [hcontrol] using hl
      rw [htrace, hattempt, List.length_append, List.length_singleton]
      exact ⟨hdeadline'.trans hdeadline, hn, h.retried_last hc hretry, by omega⟩
    · rintro sh'' m'' r ⟨-, -, -, rfl⟩ hr
      exact absurd hr (not_lt.mpr (hs r rfl))

theorem Disciplined.attempt (h : Disciplined lib d m sh is t) (hc : t.control = .sleeping l)
    (hnext : next lib t (sh', m', .wake) = some t')
    (ht' : t' = t.advance (Dispatch.attempt t.call m' l sh')) :
    Disciplined lib d m sh (is ++ [(sh', m', .wake)]) t' := by
  have hcall := h.call
  have hopen : left t.control = false := by
    rw [hc]
    rfl
  obtain ⟨hdeadline, hn, hretried, hlen⟩ := h.sleeping l hc
  obtain ⟨hf, hleft⟩ | ⟨hmax, -, hf, hc'⟩ := attempt_forwards t.call m' l sh'
  · subst ht'
    exact h.leave hnext rfl (by simp [Task.advance, hf]) hopen hleft (by simp)
  · have htrace : forwards t'.trace = l.attempt + 1 := by simp [ht', Task.advance, hf, hn]
    have hcontrol : t'.control = .forwarding { l with attempt := l.attempt + 1 } := by
      rw [ht', Task.advance, hc']
    refine ⟨by rw [run_append, h.run, Option.bind_some, hnext], by rw [ht']; exact hcall, ?_,
      fun k hk => ?_, fun l'' hl => ?_, fun l'' hl => ?_, h.answered_append hopen (by simp)⟩
    · rw [htrace]
      rw [hcall] at hmax
      push_cast
      omega
    · obtain hlt | heq : k + 1 < l.attempt ∨ k = l.attempt - 1 := by omega
      · exact (h.retried k (hn ▸ hlt)).append _
      · exact heq ▸ hretried.append _
    · obtain rfl : { l with attempt := l.attempt + 1 } = l'' := by simpa [hcontrol] using hl
      refine ⟨hdeadline, htrace, ?_⟩
      rw [List.length_append, List.length_singleton]
      change is.length + 1 + 2 = 2 * (l.attempt + 1)
      omega
    · simp [hcontrol] at hl

end

theorem disciplined_step {lib : StringLibrary} {d : Call} {m : Moment} {sh : Shared}
    {is : List (Shared × Moment × Signal)} {i : Shared × Moment × Signal} {t t' : Task}
    (h : Disciplined lib d m sh is t) (hnext : next lib t i = some t') :
    Disciplined lib d m sh (is ++ [i]) t' := by
  obtain ⟨sh', m', signal⟩ := i
  obtain ⟨seg, hseg, ht'⟩ := Option.map_eq_some_iff.mp hnext
  obtain ⟨l, o, hc, rfl, rfl⟩ | ⟨l, hc, rfl, rfl⟩ | ⟨l, ⟨hc, rfl⟩, rfl⟩ :=
    resume_cases lib t.call m' sh' hseg
  · exact h.received hc hnext ht'.symm
  · exact h.attempt hc hnext ht'.symm
  · subst ht'
    exact h.leave hnext rfl (by simp [Task.advance, forwards]) (by rw [hc]; rfl) rfl (by simp)

theorem run_disciplined {lib : StringLibrary} {d : Call} {m : Moment} {sh : Shared}
    {is : List (Shared × Moment × Signal)} {t : Task}
    (h : run lib (Task.start d m sh) is = some t) : Disciplined lib d m sh is t := by
  induction is using List.reverseRecOn generalizing t with
  | nil =>
    obtain rfl : Task.start d m sh = t := Option.some.inj h
    exact disciplined_start lib d m sh
  | append_singleton is i ih =>
    rw [run_append] at h
    obtain ⟨u, hu, hnext⟩ := Option.bind_eq_some_iff.mp h
    exact disciplined_step (ih hu) hnext

theorem toNat_lt_of_toUpper {c : Char} (h : c.toUpper.toNat < 128) : c.toNat < 128 := by
  by_cases hc : c.val ≥ 'a'.val ∧ c.val ≤ 'z'.val
  · have hz : c.val.toNat ≤ 'z'.val.toNat := UInt32.le_iff_toNat_le.mp hc.2
    exact lt_of_le_of_lt hz (by decide)
  · have hsame : c.toUpper = c := dif_neg hc
    rwa [hsame] at h

theorem upper_eq_toUpper (lib : StringLibrary) {method : String}
    (h : ∀ c ∈ method.toUpper.toList, c.toNat < 128) : lib.upper method = method.toUpper := by
  apply lib.upper_ascii
  intro c hc
  apply toNat_lt_of_toUpper
  apply h
  rw [String.toUpper, String.toList_map]
  exact List.mem_map_of_mem hc

/-- The retry discipline: as many forwards as the policy allows, each after the first only on a
retryable end of the one before it; so nothing that is not idempotent is sent twice, and an answer
below 500 is the last thing that a dispatch waits for. -/
theorem retry_discipline (lib : StringLibrary) (d : Call) (m : Moment) (sh : Shared)
    (is : List (Shared × Moment × Signal)) (t : Task)
    (h : run lib (Task.start d m sh) is = some t) :
    (forwards t.trace : ℤ) ≤ max 0 d.retryPolicy.maxAttempts ∧
    (∀ k, k + 1 < forwards t.trace → Retried lib d m sh is k) ∧
    (d.method.toUpper = "POST" ∨ d.method.toUpper = "PATCH" →
      d.retryPolicy.allowNonIdempotent = false → forwards t.trace ≤ 1) ∧
    (∀ i sh' m' r, is[i]? = some (sh', m', .outcome (.response r)) → r.statusCode < 500 →
      i + 1 = is.length ∧ t.control = .returned (passedOn d r)) := by
  have hd := run_disciplined h
  refine ⟨hd.bounded, hd.retried, fun hmethod hallow => ?_, hd.answered⟩
  by_contra hmore
  obtain ⟨_, _, _, _, _, _, _, _, _, hretry⟩ := hd.retried 0 (by omega)
  have hupper : lib.upper d.method = "POST" ∨ lib.upper d.method = "PATCH" := by
    obtain hm | hm := hmethod
    · exact .inl ((upper_eq_toUpper lib (by simp [hm])).trans hm)
    · exact .inr ((upper_eq_toUpper lib (by simp [hm])).trans hm)
  obtain hidem | hnon := hretry.method
  · obtain hm | hm := hupper
    · rw [hm] at hidem
      revert hidem
      decide +kernel
    · rw [hm] at hidem
      revert hidem
      decide +kernel
  · rw [hallow] at hnon
    cases hnon

theorem retry_discipline_post :
    (∃ t, run posix (Task.start { getUsers with method := "pOsT" } (instant 0) fresh)
      [(fresh, instant 0, answer 503)] = some t ∧ forwards t.trace ≤ 1) ∧
    ∃ t, run posix (Task.start getUsers (instant 0) fresh)
      [(fresh, instant 0, answer 503), (fresh, instant 0, .wake)] = some t ∧
      Retried posix getUsers (instant 0) fresh
        [(fresh, instant 0, answer 503), (fresh, instant 0, .wake)] 0 := by
  constructor
  · obtain ⟨t, ht⟩ := Option.isSome_iff_exists.mp (show (run posix
      (Task.start { getUsers with method := "pOsT" } (instant 0) fresh)
      [(fresh, instant 0, answer 503)]).isSome = true by decide +kernel)
    exact ⟨t, ht, (retry_discipline _ _ _ _ _ _ ht).2.2.1 (.inl (by decide +kernel)) rfl⟩
  · obtain ⟨t, ht, hf⟩ := (Option.any_eq_true _ _).mp (show (run posix
      (Task.start getUsers (instant 0) fresh)
      [(fresh, instant 0, answer 503), (fresh, instant 0, .wake)]).any
      (fun t => 1 < forwards t.trace) = true by decide +kernel)
    exact ⟨t, ht, (retry_discipline _ _ _ _ _ _ ht).2.1 0 (by simpa using hf)⟩

end Sentinel.RetryDiscipline
