import Sentinel.RetryDiscipline
import Mathlib.Tactic.Linarith

namespace Sentinel.SharedDeadline

open Runs Text Retry Dispatch RetryDiscipline
open BreakerAccounting (left)

/-- A dispatch on a clock that only goes forward. Each event is logged with the reading by which
its stretch of code judges the deadline. -/
structure Timed where
  task : Task
  now : ℚ
  log : List (ℚ × Event)

def judged (m : Moment) (seg : Segment) : List (ℚ × Event) := seg.events.map (Prod.mk (m.clock 2))

def next (lib : StringLibrary) (u : Timed) (i : Shared × Moment × Signal) : Option Timed :=
  if u.now ≤ i.2.1.clock 0 then
    (resume lib u.task.call i.2.1 i.1 u.task.control i.2.2).map
      (fun seg => ⟨u.task.advance seg, i.2.1.clock 3, u.log ++ judged i.2.1 seg⟩)
  else none

def step (lib : StringLibrary) (u : Timed) (i : Shared × Moment × Signal) (v : Timed) : Prop :=
  next lib u i = some v

def start (d : Call) (m : Moment) (sh : Shared) : Timed :=
  ⟨Task.start d m sh, m.clock 3, judged m (enter d m sh)⟩

def deadline (d : Call) (s : ℚ) : ℚ := s + d.retryPolicy.totalDeadlineMs / 1000

/-- What an event of attempt `n` owes to the deadline when this is judged at `t`. -/
def InBudget (d : Call) (s : ℚ) (n : ℕ) (t : ℚ) : Event → Prop
  | .forward _ f => t < deadline d s ∧ (0 < d.route.timeoutMs → 0 < f.perAttemptTimeoutS) ∧
      f.perAttemptTimeoutS ≤ d.route.timeoutMs / 1000 ∧ t + f.perAttemptTimeoutS ≤ deadline d s
  | .sleep clock backoffMs => clock = t ∧ (0 ≤ d.retryPolicy.baseBackoffMs →
      0 ≤ backoffMs ∧ backoffMs ≤ d.retryPolicy.baseBackoffMs * 2 ^ (n - 1)) ∧
      (0 ≤ backoffMs → t + backoffMs / 1000 < deadline d s)
  | _ => True

section

variable {lib : StringLibrary} {d : Call} {m : Moment} {l : Locals} {s : ℚ}

theorem remainingSeconds_pos (hl : l.deadline = .new s d.retryPolicy.totalDeadlineMs) {t : ℚ}
    (h : 0 < l.deadline.remainingSeconds t) :
    t < deadline d s ∧ l.deadline.remainingSeconds t = deadline d s - t := by
  rw [hl, DeadlineTracker.remainingSeconds, DeadlineTracker.new] at h ⊢
  simp only [lt_max_iff, lt_self_iff_false, false_or] at h
  rw [max_eq_right h.le, deadline]
  constructor <;> linarith

theorem forwardOf_inBudget (hl : l.deadline = .new s d.retryPolicy.totalDeadlineMs) {t : ℚ}
    (h : 0 < l.deadline.remainingSeconds t) (n : ℕ) (clock : ℚ) (i : Router.BackendInstance) :
    InBudget d s n t (.forward clock (forwardOf d i (l.deadline.remainingSeconds t))) := by
  obtain ⟨hlt, hrem⟩ := remainingSeconds_pos hl h
  refine ⟨hlt, fun htimeout => lt_min h ?_, min_le_right _ _, ?_⟩
  · have : (0 : ℚ) < d.route.timeoutMs := by exact_mod_cast htimeout
    positivity
  · have hle : (forwardOf d i (l.deadline.remainingSeconds t)).perAttemptTimeoutS ≤
        l.deadline.remainingSeconds t := min_le_left _ _
    linarith

theorem computeBackoffMs_bounds (draw : Draw) (attempt : ℕ) {baseBackoffMs : ℤ}
    (h : 0 ≤ baseBackoffMs) :
    0 ≤ computeBackoffMs draw attempt baseBackoffMs ∧
      computeBackoffMs draw attempt baseBackoffMs ≤ baseBackoffMs * 2 ^ (attempt - 1) := by
  have hbase : (0 : ℚ) ≤ baseBackoffMs := by exact_mod_cast h
  have hceiling : (0 : ℚ) ≤ baseBackoffMs * 2 ^ (attempt - 1) := by positivity
  exact ⟨mul_nonneg hceiling draw.nonneg, mul_le_of_le_one_right hceiling draw.lt_one.le⟩

theorem sleep_inBudget (hl : l.deadline = .new s d.retryPolicy.totalDeadlineMs)
    (hbudget : l.deadline.hasBudgetFor (m.clock 2)
      (computeBackoffMs m.draw l.attempt d.retryPolicy.baseBackoffMs) = true) :
    InBudget d s l.attempt (m.clock 2) (.sleep (m.clock 2)
      (computeBackoffMs m.draw l.attempt d.retryPolicy.baseBackoffMs)) := by
  refine ⟨rfl, computeBackoffMs_bounds m.draw l.attempt, fun hlo => ?_⟩
  have hlt := of_decide_eq_true hbudget
  have hpos : 0 < l.deadline.remainingSeconds (m.clock 2) := lt_of_le_of_lt (by positivity) hlt
  obtain ⟨-, hrem⟩ := remainingSeconds_pos hl hpos
  linarith

theorem recordFailure_inBudget (sh : Shared) (serviceId : String) (clock : ℚ) (n : ℕ) (t : ℚ) :
    ∀ e ∈ (sh.recordFailure serviceId clock).2.1, InBudget d s n t e := by
  obtain ⟨rest, he, hrest⟩ := sh.recordFailure_events serviceId clock
  rw [he]
  intro e hmem
  obtain rfl | hmem := List.mem_cons.mp hmem
  · trivial
  · rw [hrest e hmem]
    trivial

theorem attempt_inBudget (hl : l.deadline = .new s d.retryPolicy.totalDeadlineMs) (sh : Shared)
    (n : ℕ) : ∀ e ∈ (attempt d m l sh).events, InBudget d s n (m.clock 2) e := by
  obtain ⟨-, h⟩ | ⟨e, -, h⟩ | ⟨-, sel, clock, r, -, h⟩ | ⟨-, sel, ref, ⟨-, -, hpos⟩, h⟩ :=
    attempt_cases d m l sh
  · simp [h]
  · simp [h, InBudget]
  · rw [h, List.forall_mem_cons]
    exact ⟨trivial, recordFailure_inBudget _ _ _ _ _⟩
  · rw [h, List.forall_mem_cons, List.forall_mem_singleton]
    exact ⟨trivial, forwardOf_inBudget hl hpos n _ _⟩

theorem received_inBudget (lib : StringLibrary)
    (hl : l.deadline = .new s d.retryPolicy.totalDeadlineMs) (o : Outcome) (sh : Shared) :
    ∀ e ∈ (received lib d m l o sh).events, InBudget d s l.attempt (m.clock 2) e := by
  obtain ⟨r, -, -, h⟩ | ⟨-, -, l', kind, ⟨hattempt, hdeadline, -⟩, h⟩ | ⟨-, c, -, h⟩ :=
    received_cases lib d m l sh o
  · simp [h, InBudget]
  · rw [h]
    obtain ⟨e, h⟩ | h | ⟨b, rfl, -, -, hbudget, h⟩ := failed_cases lib d m l' sh o kind
    · rw [h, List.forall_mem_cons]
      exact ⟨trivial, recordFailure_inBudget _ _ _ _ _⟩
    · rw [h, List.forall_mem_cons]
      exact ⟨trivial, recordFailure_inBudget _ _ _ _ _⟩
    · rw [h, List.cons_append, List.forall_mem_cons, List.forall_mem_append,
        List.forall_mem_singleton]
      rw [← hattempt]
      exact ⟨trivial, recordFailure_inBudget _ _ _ _ _, sleep_inBudget (hdeadline.trans hl) hbudget⟩
  · simp [h, InBudget]

end

structure Timely (d : Call) (m : Moment) (u : Timed) : Prop where
  call : u.task.call = d
  trace : u.task.trace = u.log.map Prod.snd
  locals : ∀ l, u.task.control = .forwarding l ∨ u.task.control = .sleeping l →
    l.deadline = deadlineOf d m ∧ forwards u.task.trace = l.attempt
  inBudget : ∀ (i : ℕ) t e, u.log[i]? = some (t, e) →
    InBudget d (m.clock 0) (forwards ((u.log.take i).map Prod.snd)) t e

theorem inBudget_append {d : Call} {s : ℚ} {m : Moment} {seg : Segment} {log : List (ℚ × Event)}
    (hold : ∀ (i : ℕ) t e, log[i]? = some (t, e) →
      InBudget d s (forwards ((log.take i).map Prod.snd)) t e)
    (hnew : ∀ (j : ℕ), ∀ e ∈ seg.events,
      InBudget d s (forwards (log.map Prod.snd) + forwards (seg.events.take j)) (m.clock 2) e) :
    ∀ (i : ℕ) t e, (log ++ judged m seg)[i]? = some (t, e) →
      InBudget d s (forwards (((log ++ judged m seg).take i).map Prod.snd)) t e := by
  intro i t e hi
  obtain hlt | hge := Nat.lt_or_ge i log.length
  · rw [List.getElem?_append_left hlt] at hi
    rw [List.take_append_of_le_length hlt.le]
    exact hold i t e hi
  · rw [List.getElem?_append_right hge, judged, List.getElem?_map] at hi
    obtain ⟨e', he', hpair⟩ := Option.map_eq_some_iff.mp hi
    cases hpair
    rw [List.take_append, List.take_of_length_le hge, List.map_append, forwards_append, judged,
      ← List.map_take, List.map_map]
    have hid : Prod.snd ∘ Prod.mk (m.clock 2) = (id : Event → Event) := rfl
    rw [hid, List.map_id]
    exact hnew _ e (List.mem_of_getElem? he')

theorem forwards_take {es : List Event} (h : forwards es = 0) (j : ℕ) :
    forwards (es.take j) = 0 := by
  rw [forwards, List.countP_eq_zero] at h ⊢
  exact fun e he => h e (List.mem_of_mem_take he)

theorem left_of_waiting {c : Control} {l : Locals} (h : c = .forwarding l ∨ c = .sleeping l) :
    left c = false := by
  obtain rfl | rfl := h <;> rfl

theorem map_snd_judged (log : List (ℚ × Event)) (m : Moment) (seg : Segment) :
    (log ++ judged m seg).map Prod.snd = log.map Prod.snd ++ seg.events := by
  simp [judged, Function.comp_def]

section

variable {d : Call} {m m' : Moment} {l : Locals} {log : List (ℚ × Event)}
  (hl : l.deadline = deadlineOf d m) (hn : forwards (log.map Prod.snd) = l.attempt)
  (hlog : ∀ (i : ℕ) t e, log[i]? = some (t, e) →
    InBudget d (m.clock 0) (forwards ((log.take i).map Prod.snd)) t e)

include hl hn hlog

theorem attempt_timely (sh : Shared) :
    Timely d m ⟨⟨d, (attempt d m' l sh).control, log.map Prod.snd ++ (attempt d m' l sh).events⟩,
      m'.clock 3, log ++ judged m' (attempt d m' l sh)⟩ where
  call := rfl
  trace := (map_snd_judged log m' _).symm
  locals := by
    intro l' hl'
    obtain ⟨-, hleft⟩ | ⟨-, -, hf, hc⟩ := attempt_forwards d m' l sh
    · cases hleft.symm.trans (left_of_waiting hl')
    · obtain rfl : { l with attempt := l.attempt + 1 } = l' := by simpa [hc] using hl'
      exact ⟨hl, by simp [hn, hf]⟩
  inBudget := inBudget_append hlog (fun j => attempt_inBudget hl sh _)

theorem received_timely (lib : StringLibrary) (o : Outcome) (sh : Shared) :
    Timely d m ⟨⟨d, (received lib d m' l o sh).control,
        log.map Prod.snd ++ (received lib d m' l o sh).events⟩,
      m'.clock 3, log ++ judged m' (received lib d m' l o sh)⟩ where
  call := rfl
  trace := (map_snd_judged log m' _).symm
  locals := by
    intro l' hl'
    obtain ⟨hf, ⟨hleft, -⟩ | ⟨l'', hc, hattempt, hdeadline, -⟩⟩ := received_forwards lib d m' l o sh
    · cases hleft.symm.trans (left_of_waiting hl')
    · obtain rfl : l'' = l' := by simpa [hc] using hl'
      exact ⟨hdeadline.trans hl, by simp [hn, hf, hattempt]⟩
  inBudget := by
    apply inBudget_append hlog
    intro j e he
    obtain ⟨hf, -⟩ := received_forwards lib d m' l o sh
    rw [forwards_take hf, hn, Nat.add_zero]
    exact received_inBudget lib hl o sh e he

end

theorem start_timely (d : Call) (m : Moment) (sh : Shared) : Timely d m (start d m sh) := by
  have hlog : ∀ (i : ℕ) t e, ([] : List (ℚ × Event))[i]? = some (t, e) →
      InBudget d (m.clock 0) (forwards ((([] : List (ℚ × Event)).take i).map Prod.snd)) t e := by
    simp
  exact attempt_timely rfl rfl hlog _

theorem step_timely {lib : StringLibrary} {d : Call} {m : Moment} (u : Timed)
    (i : Shared × Moment × Signal) (v : Timed) (h : Timely d m u) (hstep : step lib u i v) :
    Timely d m v := by
  obtain ⟨sh, m', signal⟩ := i
  obtain ⟨⟨call, control, trace⟩, now, log⟩ := u
  obtain rfl : call = d := h.call
  obtain rfl : trace = log.map Prod.snd := h.trace
  simp only [step, next] at hstep
  split_ifs at hstep
  obtain ⟨seg, hseg, rfl⟩ := Option.map_eq_some_iff.mp hstep
  obtain ⟨l, o, rfl, -, rfl⟩ | ⟨l, rfl, -, rfl⟩ | ⟨l, ⟨rfl, -⟩, rfl⟩ :=
    resume_cases lib call m' sh hseg
  · obtain ⟨hl, hn⟩ := h.locals l (.inl rfl)
    exact received_timely hl hn h.inBudget lib o sh
  · obtain ⟨hl, hn⟩ := h.locals l (.inr rfl)
    exact attempt_timely hl hn h.inBudget sh
  · refine ⟨rfl, (map_snd_judged log m' _).symm, by simp [Task.advance], ?_⟩
    exact inBudget_append h.inBudget (by simp)

/-- Once the deadline has passed, a step issues no forward and leaves the deadline passed. -/
theorem step_late {lib : StringLibrary} {d : Call} {m : Moment} (u : Timed)
    (i : Shared × Moment × Signal) (v : Timed) (h : Timely d m u)
    (hlate : deadline d (m.clock 0) ≤ u.now) (hstep : step lib u i v) :
    deadline d (m.clock 0) ≤ v.now ∧ forwards v.task.trace = forwards u.task.trace := by
  obtain ⟨sh, m', signal⟩ := i
  obtain ⟨⟨call, control, trace⟩, now, log⟩ := u
  obtain rfl : call = d := h.call
  simp only [step, next] at hstep
  split_ifs at hstep with hnow
  obtain ⟨seg, hseg, rfl⟩ := Option.map_eq_some_iff.mp hstep
  refine ⟨hlate.trans (hnow.trans (m'.mono (by omega))), ?_⟩
  have hread : now ≤ m'.clock 2 := hnow.trans (m'.mono (by omega))
  obtain ⟨l, o, rfl, -, rfl⟩ | ⟨l, rfl, -, rfl⟩ | ⟨l, ⟨rfl, -⟩, rfl⟩ :=
    resume_cases lib call m' sh hseg
  · simp [Task.advance, (received_forwards lib call m' l o sh).1]
  · obtain ⟨hl, -⟩ := h.locals l (.inr rfl)
    obtain ⟨hf, -⟩ | ⟨-, hpos, -, -⟩ := attempt_forwards call m' l sh
    · simp [Task.advance, hf]
    · exact absurd (hlate.trans hread) (not_le.mpr (remainingSeconds_pos hl hpos).1)
  · simp [Task.advance, forwards]

/-- One deadline for all attempts of a dispatch: what it does is in budget, and after the deadline
it forwards no more. -/
theorem one_shared_deadline (lib : StringLibrary) (d : Call) (m : Moment) (sh : Shared) (u : Timed)
    (h : Reaches (step lib) (start d m sh) u) :
    (∀ (i : ℕ) t e, u.log[i]? = some (t, e) →
      InBudget d (m.clock 0) (forwards ((u.log.take i).map Prod.snd)) t e) ∧
    u.task.trace = u.log.map Prod.snd ∧
    ∀ v, Reaches (step lib) u v → deadline d (m.clock 0) ≤ u.now →
      forwards v.task.trace = forwards u.task.trace := by
  have hu : Timely d m u := h.invariant step_timely (start_timely d m sh)
  refine ⟨hu.inBudget, hu.trace, fun v hv hlate => ?_⟩
  have hinv : Timely d m v ∧ deadline d (m.clock 0) ≤ v.now ∧
      forwards v.task.trace = forwards u.task.trace := by
    refine Reaches.invariant (I := fun w => Timely d m w ∧ deadline d (m.clock 0) ≤ w.now ∧
      forwards w.task.trace = forwards u.task.trace) (fun w i w' hw hstep => ?_) hv
      ⟨hu, hlate, rfl⟩
    obtain ⟨hlate', hsame⟩ := step_late w i w' hw.1 hw.2.1 hstep
    exact ⟨step_timely w i w' hw.1 hstep, hlate', hsame.trans hw.2.2⟩
  exact hinv.2.2

theorem deadline_of_slow_backend : ∃ u,
    Reaches (step posix) (start getUsers (instant 0) fresh) u ∧ u.log.length = 7 ∧
      ∀ v, Reaches (step posix) u v → forwards v.task.trace = forwards u.task.trace := by
  obtain ⟨u, hr, hu⟩ := Reaches.of_check (next posix)
    (fun u => u.log.length = 7 ∧ deadline getUsers 0 ≤ u.now) (start getUsers (instant 0) fresh)
    [(fresh, instant (19 / 10), BreakerAccounting.answer 503), (fresh, instant 2, .wake)]
    (by decide +kernel)
  simp only [decide_eq_true_eq] at hu
  exact ⟨u, hr, hu.1, fun v hv =>
    (one_shared_deadline posix getUsers (instant 0) fresh u hr).2.2 v hv hu.2⟩

end Sentinel.SharedDeadline
