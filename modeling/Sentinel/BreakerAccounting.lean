import Sentinel.Dispatch
import Sentinel.Runs

namespace Sentinel.BreakerAccounting

open Runs Text Breaker Dispatch

/-- One dispatch on its own. Whatever else the gateway does while it waits shows in the shared
state that it finds when it is resumed, which can be any. -/
def next (lib : StringLibrary) (t : Task) (i : Shared × Moment × Signal) : Option Task :=
  (resume lib t.call i.2.1 i.1 t.control i.2.2).map t.advance

def step (lib : StringLibrary) (t : Task) (i : Shared × Moment × Signal) (t' : Task) : Prop :=
  next lib t i = some t'

def isBefore : Event → Bool
  | .beforeRequest _ _ => true
  | _ => false

def isRecord : Event → Bool
  | .recordSuccess | .recordFailure => true
  | _ => false

/-- The calls of `before_request`, each with what followed it up to the next one; the flag is set
when the call returned without raising. -/
def attempts : List Event → List (Bool × List Event)
  | [] => []
  | .beforeRequest _ admitted :: es =>
    (admitted, es.takeWhile (fun e => !isBefore e)) :: attempts es
  | _ :: es => attempts es

def Recorded (es : List Event) : Prop :=
  es.countP isRecord = 1 ∧
    ∀ r, .received (.response r) ∈ es → (.recordSuccess ∈ es ↔ r.statusCode < 500)

def left : Control → Bool
  | .returned _ | .raised _ => true
  | _ => false

def Accounted (t : Task) : Prop :=
  ∀ k es, (attempts t.trace)[k]? = some (true, es) →
    (k + 1 < (attempts t.trace).length ∨ left t.control) → Recorded es

theorem takeWhile_append_cons {α : Type*} (p : α → Bool) (as bs : List α) {b : α}
    (hb : p b = false) :
    (as ++ b :: bs).takeWhile p = as.takeWhile p := by
  induction as with
  | nil => simp [hb]
  | cons a as ih => simp [List.takeWhile_cons, ih]

theorem attempts_eq_nil {es : List Event} (hes : ∀ e ∈ es, isBefore e = false) :
    attempts es = [] := by
  induction es with
  | nil => rfl
  | cons e es ih =>
    have he := hes e (.head es)
    have ih := ih (fun e' he' => hes e' (.tail e he'))
    cases e with
    | beforeRequest => simp [isBefore] at he
    | forward | received | recordSuccess | recordFailure | opened | sleep => exact ih

theorem attempts_append (tr : List Event) (clock : ℚ) (admitted : Bool) (es : List Event)
    (hes : ∀ e ∈ es, isBefore e = false) :
    attempts (tr ++ .beforeRequest clock admitted :: es) = attempts tr ++ [(admitted, es)] := by
  induction tr with
  | nil => simpa [attempts, attempts_eq_nil hes, List.takeWhile_eq_self_iff] using hes
  | cons e tr ih =>
    cases e with
    | beforeRequest c a =>
      simp only [List.cons_append, attempts, ih]
      rw [takeWhile_append_cons _ _ _ (by rfl)]
    | forward | received | recordSuccess | recordFailure | opened | sleep =>
      simpa [attempts] using ih

def AllHandled (tr : List Event) : Prop := ∀ o, .received o ∈ tr → handled o

def AllRecorded (tr : List Event) : Prop := ∀ es, (true, es) ∈ attempts tr → Recorded es

theorem allRecorded_append {tr es : List Event} {clock : ℚ} {admitted : Bool} (h : AllRecorded tr)
    (hes : ∀ e ∈ es, isBefore e = false) (hr : admitted = true → Recorded es) :
    AllRecorded (tr ++ .beforeRequest clock admitted :: es) := by
  intro es' h'
  rw [attempts_append tr clock admitted es hes, List.mem_append, List.mem_singleton] at h'
  obtain h' | h' := h'
  · exact h es' h'
  · cases h'
    exact hr rfl

def isQuiet : Event → Bool
  | .opened _ | .sleep _ _ => true
  | _ => false

theorem isQuiet_spec {e : Event} (h : isQuiet e = true) :
    isBefore e = false ∧ isRecord e = false ∧ e ≠ .recordSuccess ∧ ∀ o, e ≠ .received o := by
  cases e with
  | opened | sleep => exact ⟨rfl, rfl, by simp, by simp⟩
  | beforeRequest | forward | received | recordSuccess | recordFailure => simp [isQuiet] at h

theorem recorded_failure {pre rest : List Event} (hpre : ∀ e ∈ pre, isRecord e = false)
    (hr : ∀ r, .received (.response r) ∈ pre → 500 ≤ r.statusCode)
    (hrest : ∀ e ∈ rest, isQuiet e = true) : Recorded (pre ++ .recordFailure :: rest) := by
  have hzero : ∀ {es : List Event}, (∀ e ∈ es, isRecord e = false) → es.countP isRecord = 0 := by
    intro es h
    rw [List.countP_eq_zero]
    exact fun e he => by simp [h e he]
  constructor
  · rw [List.countP_append, List.countP_cons, hzero hpre,
      hzero (fun e he => (isQuiet_spec (hrest e he)).2.1)]
    rfl
  · intro r h
    have hin : .received (.response r) ∈ pre := by
      obtain h | h : _ ∨ .received (.response r) ∈ rest := by simpa using h
      · exact h
      · exact absurd rfl ((isQuiet_spec (hrest _ h)).2.2.2 _)
    have hsuccess : Event.recordSuccess ∉ pre ++ .recordFailure :: rest := by
      intro hs
      obtain hs | hs : .recordSuccess ∈ pre ∨ .recordSuccess ∈ rest := by simpa using hs
      · exact absurd (hpre _ hs) (by simp [isRecord])
      · exact absurd rfl (isQuiet_spec (hrest _ hs)).2.2.1
    exact iff_of_false hsuccess (not_lt.mpr (hr r hin))

/-- Where a dispatch can stand: its last attempt is out, or all its attempts are recorded, or it
was left by an outcome that no branch handles. -/
inductive Balanced (t : Task) : Prop
  | out (tr : List Event) (clock clock' : ℚ) (f : Forward) (l : Locals)
      (hc : t.control = .forwarding l)
      (ht : t.trace = tr ++ [.beforeRequest clock true, .forward clock' f])
      (hh : AllHandled tr) (hr : AllRecorded tr)
  | settled (hf : ∀ l, t.control ≠ .forwarding l) (hh : AllHandled t.trace)
      (hr : AllRecorded t.trace)
  | lost (tr : List Event) (clock clock' : ℚ) (f : Forward) (o : Outcome) (hc : left t.control)
      (ht : t.trace = tr ++ [.beforeRequest clock true, .forward clock' f, .received o])
      (ho : handled o = false)

theorem failure_settled (d : Call) {c : Control} {tr : List Event} (pre rest : List Event)
    (clock : ℚ)
    (hc : ∀ l, c ≠ .forwarding l) (hh : AllHandled tr) (hr : AllRecorded tr)
    (hpre : ∀ e ∈ pre, isBefore e = false ∧ isRecord e = false)
    (hout : ∀ o, .received o ∈ pre → handled o ∧ ∀ r, o = .response r → 500 ≤ r.statusCode)
    (hrest : ∀ e ∈ rest, isQuiet e = true) :
    Balanced ⟨d, c, tr ++ .beforeRequest clock true :: (pre ++ .recordFailure :: rest)⟩ := by
  refine .settled hc ?_ (allRecorded_append hr ?_ fun _ => recorded_failure
    (fun e he => (hpre e he).2) (fun r h => (hout _ h).2 r rfl) hrest)
  · intro o ho
    obtain ho | ho | ho : _ ∈ tr ∨ _ ∈ pre ∨ _ ∈ rest := by simpa using ho
    · exact hh o ho
    · exact (hout o ho).1
    · exact absurd rfl ((isQuiet_spec (hrest _ ho)).2.2.2 o)
  · intro e he
    obtain he | rfl | he : e ∈ pre ∨ e = .recordFailure ∨ e ∈ rest := by simpa using he
    · exact (hpre e he).1
    · rfl
    · exact (isQuiet_spec (hrest e he)).1

theorem attempt_balanced (d : Call) (m : Moment) (l : Locals) (sh : Shared) {tr : List Event}
    (hh : AllHandled tr) (hr : AllRecorded tr) :
    Balanced ⟨d, (attempt d m l sh).control, tr ++ (attempt d m l sh).events⟩ := by
  obtain ⟨-, h⟩ | ⟨e, -, h⟩ | ⟨-, sel, clock, r, -, h⟩ | ⟨-, sel, ref, -, h⟩ :=
    attempt_cases d m l sh
  · rw [h]
    exact .settled (by simp) (by simpa using hh) (by simpa using hr)
  · rw [h]
    refine .settled (by simp) ?_ (allRecorded_append hr (by simp) (by simp))
    intro o ho
    exact hh o (by simpa using ho)
  · obtain ⟨rest, he, hrest⟩ := (admitted d m sh sel).recordFailure_events d.serviceId clock
    have hcontrol : ∀ l' result, settle result (.returned r) ≠ .forwarding l' := by
      intro l' result
      cases result <;> simp [settle]
    rw [h, he]
    exact failure_settled d [] rest _ (fun l' => hcontrol l' _) hh hr (by simp) (by simp)
      (fun e he => by rw [hrest e he]; rfl)
  · rw [h]
    exact .out tr _ _ _ _ rfl rfl hh hr

theorem failed_balanced (lib : StringLibrary) (d : Call) (m : Moment) (l : Locals) (sh : Shared)
    {tr : List Event} (clock clock' : ℚ) (f : Forward) (o : Outcome) (kind : Retry.FailureKind)
    (hh : AllHandled tr) (hr : AllRecorded tr) (ho : handled o)
    (hs : ∀ r, o = .response r → 500 ≤ r.statusCode) :
    Balanced ⟨d, (failed lib d m l o kind sh).control,
      tr ++ [.beforeRequest clock true, .forward clock' f] ++
        (failed lib d m l o kind sh).events⟩ := by
  obtain ⟨rest, he, hrest⟩ := sh.recordFailure_events d.serviceId (m.clock 0)
  have hclosed : ∀ c tail, (∀ l', c ≠ .forwarding l') → (∀ e ∈ tail, isQuiet e = true) →
      Balanced ⟨d, c, tr ++ [.beforeRequest clock true, .forward clock' f] ++
        (.received o :: .recordFailure :: rest ++ tail)⟩ := by
    intro c tail hc htail
    have h := failure_settled d [.forward clock' f, .received o] (rest ++ tail) clock hc hh hr
      (by simp [isBefore, isRecord])
      (fun o' ho' => by
        obtain rfl : o' = o := by simpa using ho'
        exact ⟨ho, hs⟩)
      (fun e he => by
        obtain he | he := List.mem_append.mp he
        · rw [hrest e he]
          rfl
        · exact htail e he)
    simpa using h
  obtain ⟨e, h⟩ | h | ⟨b, -, -, -, -, h⟩ := failed_cases lib d m l sh o kind
  · rw [h, he]
    simpa using hclosed (.raised (.breaker e)) [] (by simp) (by simp)
  · rw [h, he]
    simpa using hclosed (.returned (exhausted d l)) [] (by simp) (by simp)
  · rw [h, he]
    exact hclosed (.sleeping l) [.sleep (m.clock 2) b] (by simp) (by simp [isQuiet])

theorem received_balanced (lib : StringLibrary) (d : Call) (m : Moment) (l : Locals) (sh : Shared)
    {tr : List Event} (clock clock' : ℚ) (f : Forward) (o : Outcome)
    (hh : AllHandled tr) (hr : AllRecorded tr) :
    Balanced ⟨d, (received lib d m l o sh).control,
      tr ++ [.beforeRequest clock true, .forward clock' f] ++
        (received lib d m l o sh).events⟩ := by
  obtain ⟨r, rfl, hlow, h⟩ | ⟨ho, hs, l', kind, -, h⟩ | ⟨ho, c, hc, h⟩ :=
    received_cases lib d m l sh o
  · have hrec : Recorded [.forward clock' f, .received (.response r), .recordSuccess] := by
      refine ⟨rfl, fun r' h' => ?_⟩
      obtain rfl : r' = r := by simpa using h'
      simpa using hlow
    rw [h, List.append_assoc]
    refine .settled (by simp) ?_ (allRecorded_append hr (by simp [isBefore]) (fun _ => hrec))
    intro o ho
    obtain ho | rfl : _ ∈ tr ∨ o = .response r := by simpa using ho
    · exact hh o ho
    · simp only [handled, decide_eq_true_eq]
      omega
  · rw [h]
    exact failed_balanced lib d m l' sh clock clock' f o kind hh hr ho hs
  · rw [h]
    refine .lost tr clock clock' f o ?_ (by simp) ho
    obtain ⟨r, rfl⟩ | ⟨e, rfl⟩ := hc <;> rfl

theorem start_balanced (d : Call) (m : Moment) (sh : Shared) : Balanced (Task.start d m sh) :=
  attempt_balanced d m _ _ (fun _ h => absurd h List.not_mem_nil)
    (fun _ h => absurd h List.not_mem_nil)

theorem sleeping_settled {t : Task} {l : Locals} (hb : Balanced t) (hc : t.control = .sleeping l) :
    AllHandled t.trace ∧ AllRecorded t.trace := by
  cases hb with
  | out tr clock clock' f l' hf => simp [hc] at hf
  | settled _ hh hr => exact ⟨hh, hr⟩
  | lost tr clock clock' f o hl => simp [hc, left] at hl

theorem step_balanced (lib : StringLibrary) (t : Task) (i : Shared × Moment × Signal) (t' : Task)
    (hb : Balanced t) (h : step lib t i t') : Balanced t' := by
  obtain ⟨sh, m, signal⟩ := i
  obtain ⟨seg, hseg, rfl⟩ := Option.map_eq_some_iff.mp h
  obtain ⟨l, o, hc, -, rfl⟩ | ⟨l, hc, -, rfl⟩ | ⟨l, ⟨hc, -⟩, rfl⟩ :=
    resume_cases lib t.call m sh hseg
  · cases hb with
    | out tr clock clock' f l' _ ht hh hr =>
      have hb' := received_balanced lib t.call m l sh clock clock' f o hh hr
      rwa [← ht] at hb'
    | settled hf => exact absurd hc (hf l)
    | lost tr clock clock' f o hl => simp [hc, left] at hl
  · obtain ⟨hh, hr⟩ := sleeping_settled hb hc
    exact attempt_balanced t.call m l sh hh hr
  · obtain ⟨hh, hr⟩ := sleeping_settled hb hc
    exact .settled (by simp [Task.advance]) (by simpa [Task.advance] using hh)
      (by simpa [Task.advance] using hr)

/-- The breaker is told of every attempt exactly as long as every outcome is one that a branch of
the loop handles. -/
theorem accounted_iff_handled (lib : StringLibrary) {d : Call} {m : Moment} {sh : Shared} {t : Task}
    (h : Reaches (step lib) (Task.start d m sh) t) :
    Accounted t ↔ ∀ o, .received o ∈ t.trace → handled o := by
  have hb : Balanced t := h.invariant (step_balanced lib) (start_balanced d m sh)
  cases hb with
  | out tr clock clock' f l hc ht hh hr =>
    have hatt := attempts_append tr clock true [.forward clock' f] (by simp [isBefore])
    refine iff_of_true (fun k es hk hlast => ?_) (fun o ho => hh o (by simpa [ht] using ho))
    simp only [ht, hatt, hc, left, List.length_append, List.length_singleton, Bool.false_eq_true,
      or_false] at hk hlast
    rw [List.getElem?_append_left (by omega)] at hk
    exact hr es (List.mem_of_getElem? hk)
  | settled hf hh hr => exact iff_of_true (fun k es hk _ => hr es (List.mem_of_getElem? hk)) hh
  | lost tr clock clock' f o hc ht ho =>
    have hatt := attempts_append tr clock true [.forward clock' f, .received o]
      (by simp [isBefore])
    refine iff_of_false (fun ha => ?_) (fun hall => ?_)
    · have hrec := ha (attempts tr).length [.forward clock' f, .received o] (by simp [ht, hatt])
        (.inr hc)
      exact absurd hrec.1 (by simp [isRecord])
    · have := hall o (by simp [ht])
      simp [ho] at this

def answer (statusCode : ℕ) : Signal := .outcome (.response ⟨statusCode, .empty, []⟩)

theorem accounted_retry : ∃ t, Reaches (step posix) (Task.start getUsers (instant 0) fresh) t ∧
    left t.control = true ∧ (attempts t.trace).length = 2 ∧ Accounted t := by
  obtain ⟨t, hr, ht⟩ := Reaches.of_check (next posix)
    (fun t => left t.control ∧ (attempts t.trace).length = 2 ∧
      t.trace.all (fun e => match e with | .received o => handled o | _ => true))
    (Task.start getUsers (instant 0) fresh)
    [(fresh, instant 0, answer 503), (fresh, instant 0, .wake), (fresh, instant 0, answer 200)]
    (by decide +kernel)
  simp only [decide_eq_true_eq] at ht
  exact ⟨t, hr, ht.1, ht.2.1,
    (accounted_iff_handled posix hr).mpr (fun o ho => List.all_eq_true.mp ht.2.2 _ ho)⟩

theorem unaccounted_read_error :
    ∃ t, Reaches (step posix) (Task.start getUsers (instant 0) fresh) t ∧ ¬ Accounted t := by
  obtain ⟨t, hr, ht⟩ := Reaches.of_check (next posix)
    (fun t => left t.control ∧
      (attempts t.trace)[0]?.any (fun a => a.1 ∧ a.2.countP isRecord = 0))
    (Task.start getUsers (instant 0) fresh) [(fresh, instant 0, .outcome (.raised .readError))]
    (by decide +kernel)
  simp only [decide_eq_true_eq] at ht
  obtain ⟨hleft, hany⟩ := ht
  obtain ⟨⟨a, es⟩, hes, ha⟩ := (Option.any_eq_true _ _).mp hany
  simp only [decide_eq_true_eq] at ha
  obtain ⟨rfl, hzero⟩ := ha
  refine ⟨t, hr, fun h => ?_⟩
  have hone := (h 0 es hes (.inr hleft)).1
  omega

end Sentinel.BreakerAccounting
