import Sentinel.GateAccounting
import Sentinel.Termination
import Mathlib.Data.Set.Finite.Lemmas
import Mathlib.Data.Set.Finite.List

namespace Sentinel.GateProgress

open Runs Gates GateMoves GateAccounting Tally Termination

def depth : Level → ℕ
  | .global => 0
  | .tenant => 1
  | .route => 2
  | .backend => 3

theorem depth_lt_of_mem_outer {l l' : Level} (h : l ∈ outer l') : depth l < depth l' := by
  cases l' <;> simp only [outer, List.mem_cons, List.not_mem_nil, or_false] at h
  · obtain rfl := h
    decide
  · obtain rfl | rfl := h <;> decide
  · obtain rfl | rfl | rfl := h <;> decide

/-- The wakes that a request still has before it, at most. -/
def remaining : Phase → ℕ
  | .waiting l => 9 - 2 * depth l
  | .granted l => 8 - 2 * depth l
  | .inside => 1
  | .left _ => 0

def Out (r : Request) : Prop := ∃ exit, r.phase = .left exit

theorem remaining_pos {r : Request} (h : ¬Out r) : 0 < remaining r.phase := by
  cases hp : r.phase with
  | waiting l | granted l => cases l <;> decide
  | inside => decide
  | left exit => exact absurd ⟨exit, hp⟩ h

theorem remaining_le (p : Phase) : remaining p ≤ 9 := by
  cases p <;> simp only [remaining] <;> omega

theorem remaining_granted (l : Level) : remaining (.granted l) < remaining (.waiting l) := by
  cases l <;> decide

theorem remaining_after (l : Level) : remaining (after l) < remaining (.granted l) := by
  cases l <;> decide

theorem remaining_of_mem_scope {l : Level} {p : Phase} (h : l ∈ scope p) :
    remaining p < remaining (.waiting l) := by
  cases p with
  | waiting l' | granted l' =>
    have hlt := depth_lt_of_mem_outer h
    have hle : depth l' ≤ 3 := by cases l' <;> decide
    simp only [remaining]
    omega
  | inside => cases l <;> decide
  | left exit => simp [scope] at h

theorem progress_remaining {m m' : ConcurrencyManager} {r r' : Request} {w : Wake}
    (h : progress m r w = some (m', r')) : remaining r'.phase < remaining r.phase := by
  obtain ⟨l, g, hp, -, -, -, rfl⟩ | ⟨l, hp, -, rfl⟩ | ⟨l, exit, hp, he⟩ | ⟨exit, hp, he⟩ :=
    progress_cases h
  · rw [hp]
    exact remaining_granted l
  · rw [hp]
    exact remaining_after l
  · obtain rfl := congrArg Prod.snd he
    exact remaining_pos (by simp [Out, hp])
  · obtain rfl := congrArg Prod.snd he
    refine remaining_pos ?_
    rintro ⟨exit', hleft⟩
    cases w <;> simp [progress, hleft] at h

def work (s : System) : ℕ := (s.requests.map (fun r => remaining r.phase)).sum

def IsWake : Event → Prop
  | .acquireAll _ => False
  | .wake _ _ => True

theorem wake_work {s t : System} {e : Event} (he : IsWake e) (h : step s e t) :
    work t < work s := by
  cases e with
  | acquireAll ids => exact he.elim
  | wake i w =>
    obtain ⟨r, m', r', hi, hw, rfl⟩ := wake_cases h
    have hlt := progress_remaining hw
    have hsum := sum_map_set_add hi r' (fun r => remaining r.phase)
    simp only [work]
    omega

/-- The wakes of a request that is not timed out, cancelled or failed. -/
def Serves : Event → Prop
  | .wake _ .grant | .wake _ .resume | .wake _ .finish => True
  | _ => False

theorem Serves.isWake {e : Event} (h : Serves e) : IsWake e := by
  cases e with
  | acquireAll ids => exact h
  | wake i w => trivial

theorem serves_cases {s t : System} {e : Event} (he : Serves e) (h : step s e t) :
    ∃ i r m' r', s.requests[i]? = some r ∧ t = ⟨m', s.requests.set i r'⟩ ∧ r'.ids = r.ids ∧
      ¬Out r ∧ (¬Out r' ∨ r.phase = .inside ∧ r'.phase = .left .completed) := by
  obtain _ | ⟨i, w⟩ := e
  · exact he.elim
  obtain ⟨r, m', r', hi, hw, rfl⟩ := wake_cases h
  refine ⟨i, r, m', r', hi, rfl, ?_⟩
  cases w with
  | grant =>
    cases hp : r.phase with
    | waiting l =>
      cases hg : s.manager.gate? l (gateName r.ids l) with
      | none => simp [progress, hp, hg] at hw
      | some g =>
        simp only [progress, hp, hg] at hw
        split_ifs at hw with hpos
        obtain rfl := (Prod.mk.inj (Option.some.inj hw)).2
        exact ⟨rfl, by simp [Out, hp], .inl (by simp [Out])⟩
    | granted | inside | left => simp [progress, hp] at hw
  | resume =>
    cases hp : r.phase with
    | granted l =>
      simp only [progress, hp, Option.some.injEq, Prod.mk.injEq] at hw
      obtain rfl := hw.2
      exact ⟨rfl, by simp [Out, hp], .inl (by cases l <;> simp [Out, after])⟩
    | waiting | inside | left => simp [progress, hp] at hw
  | finish =>
    cases hp : r.phase with
    | inside =>
      simp only [progress, hp, Option.some.injEq] at hw
      obtain rfl := congrArg Prod.snd hw
      exact ⟨rfl, by simp [Out, hp], .inr ⟨rfl, rfl⟩⟩
    | waiting | granted | left => simp [progress, hp] at hw
  | timeout | cancel | fail => exact he.elim

theorem serves_of_pending {limits : ConcurrencyLimits} {s : System}
    (hlimits : ∀ l, 0 < limitOf limits l) (hq : 0 < limits.queueTimeoutMs)
    (hs : Accounted limits s) (h : ∃ r ∈ s.requests, ¬Out r) : ∃ e t, Serves e ∧ step s e t := by
  have hfinite : {r | r ∈ s.requests ∧ ¬Out r}.Finite :=
    s.requests.finite_toSet.subset (fun r hr => hr.1)
  obtain ⟨r, ⟨hr, hout⟩, hmin⟩ :=
    Set.exists_min_image _ (fun r : Request => remaining r.phase) hfinite h
  obtain ⟨i, hi⟩ := List.mem_iff_getElem?.mp hr
  cases hp : r.phase with
  | left exit => exact absurd ⟨exit, hp⟩ hout
  | inside => exact ⟨.wake i .finish, _, trivial, by simp only [step, next, hi, progress, hp]; rfl⟩
  | granted l =>
    exact ⟨.wake i .resume, _, trivial, by simp only [step, next, hi, progress, hp]; rfl⟩
  | waiting l =>
    obtain ⟨g, hg⟩ := Option.isSome_iff_exists.mp (hs.registered r hr l)
    have hholders : holders s l (gateName r.ids l) = 0 := by
      apply holders_eq_zero
      intro r' hr' _ hheld
      rw [hs.nested r' hr'] at hheld
      have hout' : ¬Out r' := by
        rintro ⟨exit, hleft⟩
        simp [hleft, scope] at hheld
      have hle := hmin r' ⟨hr', hout'⟩
      have hlt := remaining_of_mem_scope hheld
      simp only [hp] at hle
      omega
    have howners : owners s l (gateName r.ids l) = 0 := by
      apply owners_eq_zero
      intro r' hr' _ hgranted
      have hle := hmin r' ⟨hr', by simp [Out, hgranted]⟩
      have hlt := remaining_granted l
      simp only [hp, hgranted] at hle
      omega
    have hpermits := hs.permits l _ g hg
    have hlimit := hs.limit l _ g hg
    have hpos : 0 < g.permits := by
      have := hlimits l
      omega
    have htime : 0 < g.queueTimeoutMs := by rwa [hs.queueTimeoutMs l _ g hg]
    exact ⟨.wake i .grant, _, trivial,
      by simp only [step, next, hi, progress, hp, hg, htime, hpos, and_self, ↓reduceIte]; rfl⟩

def serve : System → Event → System → Prop := Guarded (fun _ e => Serves e) step

theorem serve_reaches {s t : System} (h : Reaches serve s t) : Reaches step s t :=
  h.mono (fun _ _ _ hi => hi.2)

theorem exists_served (s : System) : ∃ t, Reaches serve s t ∧ ∀ e u, ¬serve t e u :=
  exists_stuck (I := fun _ => True) (fun _ _ _ _ _ => trivial)
    (fun _ _ _ _ h => wake_work h.1.isWake h.2) trivial

theorem not_inside {limits : ConcurrencyLimits} {s : System} (hs : Accounted limits s) {l : Level}
    (hl : limitOf limits l = 0) : ∀ r ∈ s.requests, r.phase ≠ .inside := by
  intro r hr hp
  obtain ⟨g, hg⟩ := Option.isSome_iff_exists.mp (hs.registered r hr l)
  have hpermits := hs.permits l _ g hg
  have hlimit := hs.limit l _ g hg
  have hpos : 0 < holders s l (gateName r.ids l) := by
    refine List.countP_pos_iff.mpr ⟨r, hr, ?_⟩
    cases l <;> simp [holds, hs.nested r hr, hp, scope]
  omega

theorem serve_pending {limits : ConcurrencyLimits} {l : Level} (hl : limitOf limits l = 0)
    (s : System) (e : Event) (t : System)
    (hs : Accounted limits s ∧ ∃ r ∈ s.requests, ¬Out r) (h : serve s e t) :
    Accounted limits t ∧ ∃ r ∈ t.requests, ¬Out r := by
  refine ⟨step_accounted s e t hs.1 h.2, ?_⟩
  obtain ⟨i, r, m', r', hi, rfl, -, -, hout | ⟨hp, -⟩⟩ := serves_cases h.1 h.2
  · obtain ⟨hlt, -⟩ := List.getElem?_eq_some_iff.mp hi
    exact ⟨r', List.mem_set hlt r', hout⟩
  · exact absurd hp (not_inside hs.1 hl r (List.mem_of_getElem? hi))

theorem unserved {limits : ConcurrencyLimits} {s t : System} {e : Event}
    (hq : limits.queueTimeoutMs ≤ 0) (hs : Reaches step (init limits) s) (he : Serves e) :
    ¬step s e t := by
  intro h
  have hless := wake_work he.isWake h
  have hs' := reaches_outside hq (hs.tail h)
  obtain ⟨i, r, m', r', hi, rfl, -, hr, hr' | ⟨hp, -⟩⟩ := serves_cases he h
  · obtain ⟨hlt, -⟩ := List.getElem?_eq_some_iff.mp hi
    have hp := (reaches_outside hq hs r (List.mem_of_getElem? hi)).resolve_right hr
    have hp' := (hs' r' (List.mem_set hlt r')).resolve_right hr'
    have hsum := sum_map_set_add hi r' (fun r => remaining r.phase)
    simp only [hp, hp', work] at hsum hless
    omega
  · have := reaches_outside hq hs r (List.mem_of_getElem? hi)
    simp [Outside, hp] at this

/-- The gates cannot deadlock, whatever was granted, timed out or cancelled before, exactly when
no limit is zero and there is time to wait. -/
theorem deadlock_free_iff (limits : ConcurrencyLimits) :
    (∀ s, Reaches step (init limits) s → (∃ r ∈ s.requests, ¬Out r) →
      ∃ e t, Serves e ∧ step s e t) ↔
        (∀ l, 0 < limitOf limits l) ∧ 0 < limits.queueTimeoutMs := by
  let s := acquireAll (init limits) ⟨"acme", "users", "users-svc"⟩
  have hs : Reaches step (init limits) s := .head (i := .acquireAll _) rfl (.refl s)
  have hwaits : ∃ r ∈ s.requests, ¬Out r := ⟨_, .head _, by simp [Out]⟩
  constructor
  · intro h
    refine ⟨fun l => ?_, ?_⟩
    · by_contra hl
      obtain ⟨t, ht, hstuck⟩ := exists_served s
      have hpending := ht.invariant (serve_pending (Nat.eq_zero_of_not_pos hl))
        ⟨reaches_accounted hs, hwaits⟩
      obtain ⟨e, u, he, hu⟩ := h t (hs.trans (serve_reaches ht)) hpending.2
      exact hstuck e u ⟨he, hu⟩
    · by_contra hq
      obtain ⟨e, t, he, ht⟩ := h s hs hwaits
      exact unserved (not_lt.mp hq) hs he ht
  · rintro ⟨hlimits, hq⟩ s hs
    exact serves_of_pending hlimits hq (reaches_accounted hs)

/-- What the requests of a state have become: those that were out are as they were, every other
one still goes on or has run to its end. -/
def Serving (s t : System) : Prop :=
  ∀ (i : ℕ) r, s.requests[i]? = some r → ∃ r', t.requests[i]? = some r' ∧ r'.ids = r.ids ∧
    (Out r ∧ r' = r ∨ ¬Out r ∧ (¬Out r' ∨ r'.phase = .left .completed))

theorem serving_refl (s : System) : Serving s s := by
  intro i r hi
  refine ⟨r, hi, rfl, ?_⟩
  by_cases hout : Out r
  · exact .inl ⟨hout, rfl⟩
  · exact .inr ⟨hout, .inl hout⟩

theorem serve_serving {s : System} (t : System) (e : Event) (u : System) (hst : Serving s t)
    (h : serve t e u) : Serving s u := by
  obtain ⟨j, r₁, m', r₂, hj, rfl, hids, hout₁, hout₂⟩ := serves_cases h.1 h.2
  intro i r hi
  obtain ⟨r', hi', hids', hr'⟩ := hst i r hi
  by_cases hij : j = i
  · subst hij
    obtain rfl := Option.some.inj (hj.symm.trans hi')
    obtain ⟨hlt, -⟩ := List.getElem?_eq_some_iff.mp hi'
    refine ⟨r₂, List.getElem?_set_self hlt, hids.trans hids', ?_⟩
    obtain ⟨hout, rfl⟩ | ⟨hout, -⟩ := hr'
    · exact absurd hout hout₁
    · exact .inr ⟨hout, hout₂.imp_right And.right⟩
  · exact ⟨r', by rw [List.getElem?_set_ne hij, hi'], hids', hr'⟩

def pending (s : System) : ℕ := s.requests.countP (fun r => 0 < remaining r.phase)

theorem work_le (s : System) : work s ≤ 9 * pending s := by
  simp only [work, pending]
  induction s.requests with
  | nil => simp
  | cons r rs ih =>
    have hle := remaining_le r.phase
    by_cases hr : 0 < remaining r.phase <;> simp [hr] <;> omega

/-- When nothing more arrives the gates come to rest: any run is short, and a run that only serves
does not stop before every request has run to its end and every permit is back. -/
theorem gates_drain {limits : ConcurrencyLimits} {s : System}
    (hlimits : ∀ l, 0 < limitOf limits l) (hq : 0 < limits.queueTimeoutMs)
    (h : Reaches step (init limits) s) :
    (∀ is t, Trace step s is t → (∀ e ∈ is, IsWake e) → is.length ≤ 9 * pending s) ∧
    (∃ t, Reaches serve s t ∧ ∀ e u, ¬serve t e u) ∧
    ∀ t, Reaches serve s t → (∀ e u, ¬serve t e u) →
      (∀ (i : ℕ) r, s.requests[i]? = some r → ∃ r', t.requests[i]? = some r' ∧ r'.ids = r.ids ∧
        (Out r ∧ r' = r ∨ r'.phase = .left .completed)) ∧
      ∀ l n g, t.manager.gate? l n = some g → g.inFlight = 0 ∧ g.permits = g.limit := by
  refine ⟨fun is t ht his => ?_, exists_served s, fun t ht hstuck => ?_⟩
  · have hlen := length_add_le (fun _ _ _ hi => wake_work hi.1 hi.2) (ht.guarded his)
    have hwork := work_le s
    omega
  · have hreach := h.trans (serve_reaches ht)
    have hout : ∀ r ∈ t.requests, Out r := by
      intro r hr
      by_contra hout
      obtain ⟨e, u, he, hu⟩ :=
        serves_of_pending hlimits hq (reaches_accounted hreach) ⟨r, hr, hout⟩
      exact hstuck e u ⟨he, hu⟩
    refine ⟨fun i r hi => ?_, fun l n g hg => idle_gate (reaches_accounted hreach) hout hg⟩
    obtain ⟨r', hi', hids, hr'⟩ := ht.invariant serve_serving (serving_refl s) i r hi
    refine ⟨r', hi', hids, hr'.imp_right (fun hr' => ?_)⟩
    exact hr'.2.resolve_left (not_not_intro (hout r' (List.mem_of_getElem? hi')))

theorem gates_drain_crowded : ∃ s t, Reaches step (init narrowTenant) s ∧ pending s = 2 ∧
    Reaches serve s t ∧ t.manager.globalGate.permits = t.manager.globalGate.limit := by
  obtain ⟨s, hr, hs⟩ := Reaches.of_check next (fun s => pending s = 2) (init narrowTenant) crowded
    (by decide +kernel)
  have hlimits : ∀ l, 0 < limitOf narrowTenant l := by
    intro l
    cases l <;> decide
  obtain ⟨-, ⟨t, ht, hstuck⟩, hdrained⟩ := gates_drain hlimits (by decide) hr
  exact ⟨s, t, hr, of_decide_eq_true hs, ht, ((hdrained t ht hstuck).2 .global "global" _ rfl).2⟩

end Sentinel.GateProgress
