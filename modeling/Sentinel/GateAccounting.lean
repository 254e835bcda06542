import Sentinel.GateMoves
import Sentinel.Tally
import Mathlib.Algebra.BigOperators.Ring.Finset

namespace Sentinel.GateAccounting

open Runs Gates ConcurrencyManager GateMoves Tally

/-- The requests that have entered the gate of that level and name and not left it. -/
def holders (s : System) (l : Level) (n : String) : ℕ := s.requests.countP (holds l n)

/-- The requests with a permit of the gate that they have not yet resumed with. -/
def owners (s : System) (l : Level) (n : String) : ℕ := s.requests.countP (owns l n)

structure Accounted (limits : ConcurrencyLimits) (s : System) : Prop where
  config : s.manager.limits = limits
  nested : ∀ r ∈ s.requests, r.held = scope r.phase
  registered : ∀ r ∈ s.requests, ∀ l, (s.manager.gate? l (gateName r.ids l)).isSome
  limit : ∀ l n g, s.manager.gate? l n = some g → g.limit = limitOf limits l
  queueTimeoutMs : ∀ l n g, s.manager.gate? l n = some g →
    g.queueTimeoutMs = limits.queueTimeoutMs
  inFlight : ∀ l n g, s.manager.gate? l n = some g → g.inFlight = holders s l n
  permits : ∀ l n g, s.manager.gate? l n = some g →
    g.permits + owners s l n + holders s l n = g.limit

variable {limits : ConcurrencyLimits} {s t : System}

theorem init_accounted (limits : ConcurrencyLimits) : Accounted limits (init limits) := by
  have hg : ∀ l n g, (init limits).manager.gate? l n = some g →
      g = .new "global" (limitOf limits l) limits.queueTimeoutMs := by
    intro l n g h
    cases l with
    | global =>
      by_cases hn : n = "global"
      · simpa [init, new, gate?, hn, limitOf, eq_comm] using h
      · simp [gate?, hn] at h
    | tenant | route | backend => simp [init, new, gate?] at h
  refine ⟨rfl, by simp [init], by simp [init], ?_, ?_, ?_, ?_⟩
  all_goals
    intro l n g h
    rw [hg l n g h]
    simp [BoundedConcurrencyGate.new, holders, owners, init]

theorem holders_eq_zero {l : Level} {n : String}
    (h : ∀ r ∈ s.requests, n = gateName r.ids l → l ∉ r.held) : holders s l n = 0 := by
  simp only [holders, List.countP_eq_zero, holds, decide_eq_true_eq]
  exact fun r hr hh => h r hr hh.1 hh.2

theorem owners_eq_zero {l : Level} {n : String}
    (h : ∀ r ∈ s.requests, n = gateName r.ids l → r.phase ≠ .granted l) : owners s l n = 0 := by
  simp only [owners, List.countP_eq_zero, owns, decide_eq_true_eq]
  exact fun r hr ho => h r hr ho.1 ho.2

theorem gate_of_register (hs : Accounted limits s) {ids : Ids} {l : Level} {n : String}
    {g : BoundedConcurrencyGate} (h : (s.manager.register ids).gate? l n = some g) :
    s.manager.gate? l n = some g ∨ g = .new n (limitOf limits l) limits.queueTimeoutMs ∧
      holders s l n = 0 ∧ owners s l n = 0 := by
  rw [gate?_register, Option.or_eq_some_iff] at h
  obtain h | ⟨hnone, h⟩ := h
  · exact .inl h
  · have hfree : ∀ r ∈ s.requests, n ≠ gateName r.ids l := by
      intro r hr he
      have := hs.registered r hr l
      simp [← he, hnone] at this
    refine .inr ⟨?_, holders_eq_zero (fun r hr hn => absurd hn (hfree r hr)),
      owners_eq_zero (fun r hr hn => absurd hn (hfree r hr))⟩
    by_cases hc : l ≠ .global ∧ n = gateName ids l
    · rw [if_pos hc, hs.config] at h
      exact (Option.some.inj h).symm
    · simp [if_neg hc] at h

theorem acquireAll_accounted (ids : Ids) (hs : Accounted limits s) :
    Accounted limits (acquireAll s ids) := by
  have hh : ∀ l n, holders (acquireAll s ids) l n = holders s l n := by
    intro l n
    simp [acquireAll, holders, holds]
  have ho : ∀ l n, owners (acquireAll s ids) l n = owners s l n := by
    intro l n
    simp [acquireAll, owners, owns]
  refine ⟨hs.config, ?_, ?_, ?_, ?_, ?_, ?_⟩
  · intro r hr
    obtain hr | rfl : r ∈ s.requests ∨ r = { ids := ids } := by simpa [acquireAll] using hr
    · exact hs.nested r hr
    · rfl
  · intro r hr l
    obtain hr | rfl : r ∈ s.requests ∨ r = { ids := ids } := by simpa [acquireAll] using hr
    · simp [acquireAll, gate?_register, hs.registered r hr l]
    · simp only [acquireAll, gate?_register]
      cases l with
      | global => simp [gate?, gateName]
      | tenant | route | backend => simp
  all_goals
    intro l n g h
    obtain h | ⟨rfl, hz, hz'⟩ := gate_of_register hs h
  · exact hs.limit l n g h
  · rfl
  · exact hs.queueTimeoutMs l n g h
  · rfl
  · rw [hh]
    exact hs.inFlight l n g h
  · simp [hh, hz, BoundedConcurrencyGate.new]
  · rw [hh, ho]
    exact hs.permits l n g h
  · simp [hh, ho, hz, hz', BoundedConcurrencyGate.new]

theorem wake_accounted {i : ℕ} {r r' : Request} {w : Wake} {m' : ConcurrencyManager}
    (hi : s.requests[i]? = some r) (hw : progress s.manager r w = some (m', r'))
    (hs : Accounted limits s) : Accounted limits ⟨m', s.requests.set i r'⟩ := by
  have hr := List.mem_of_getElem? hi
  obtain ⟨hlimits, hids, hscope, hmoves⟩ := progress_moves hw (hs.nested r hr)
  have hmem : ∀ x ∈ s.requests.set i r', x ∈ s.requests ∨ x = r' :=
    fun x hx => List.mem_or_eq_of_mem_set hx
  have hgate : ∀ l n g', m'.gate? l n = some g' →
      ∃ g, s.manager.gate? l n = some g ∧ Moves l n r r' g g' := by
    intro l n g' h
    obtain ⟨f, hf, hm⟩ := hmoves l n
    rw [hf, Option.map_eq_some_iff] at h
    obtain ⟨g, hg, rfl⟩ := h
    exact ⟨g, hg, hm g hg⟩
  have hh := fun l n => countP_set_add hi r' (holds l n)
  have ho := fun l n => countP_set_add hi r' (owns l n)
  refine ⟨hlimits.trans hs.config, ?_, ?_, ?_, ?_, ?_, ?_⟩
  · intro x hx
    obtain hx | rfl := hmem x hx
    · exact hs.nested x hx
    · exact hscope
  · intro x hx l
    obtain ⟨f, hf, -⟩ := hmoves l (gateName x.ids l)
    obtain hx | rfl := hmem x hx
    · simpa [hf] using hs.registered x hx l
    · rw [hf, hids]
      simpa using hs.registered r hr l
  · intro l n g' h
    obtain ⟨g, hg, hm⟩ := hgate l n g' h
    exact hm.limit.trans (hs.limit l n g hg)
  · intro l n g' h
    obtain ⟨g, hg, hm⟩ := hgate l n g' h
    exact hm.queueTimeoutMs.trans (hs.queueTimeoutMs l n g hg)
  · intro l n g' h
    obtain ⟨g, hg, hm⟩ := hgate l n g' h
    have hbefore := hs.inFlight l n g hg
    have hcount := hh l n
    have hmove := hm.inFlight
    simp only [holders] at hbefore ⊢
    omega
  · intro l n g' h
    obtain ⟨g, hg, hm⟩ := hgate l n g' h
    have hbefore := hs.permits l n g hg
    have hcount := hh l n
    have hcount' := ho l n
    have hmove := hm.permits
    simp only [holders, owners, hm.limit] at hbefore ⊢
    omega

theorem wake_cases {i : ℕ} {w : Wake} (h : step s (.wake i w) t) :
    ∃ r m' r', s.requests[i]? = some r ∧ progress s.manager r w = some (m', r') ∧
      t = ⟨m', s.requests.set i r'⟩ := by
  cases hi : s.requests[i]? with
  | none => simp [step, next, hi] at h
  | some r =>
    simp only [step, next, hi, Option.map_eq_some_iff] at h
    obtain ⟨⟨m', r'⟩, hw, rfl⟩ := h
    exact ⟨r, m', r', rfl, hw, rfl⟩

theorem step_accounted (s : System) (e : Event) (t : System) (hs : Accounted limits s)
    (h : step s e t) : Accounted limits t := by
  cases e with
  | acquireAll ids =>
    obtain rfl := Option.some.inj h
    exact acquireAll_accounted ids hs
  | wake i w =>
    obtain ⟨r, m', r', hi, hw, rfl⟩ := wake_cases h
    exact wake_accounted hi hw hs

theorem reaches_accounted (h : Reaches step (init limits) s) : Accounted limits s :=
  h.invariant step_accounted (init_accounted limits)

def Outside (r : Request) : Prop := r.phase = .waiting .global ∨ ∃ exit, r.phase = .left exit

theorem step_outside (hq : limits.queueTimeoutMs ≤ 0) {e : Event} (hs : Accounted limits s)
    (hall : ∀ r ∈ s.requests, Outside r) (h : step s e t) : ∀ r ∈ t.requests, Outside r := by
  cases e with
  | acquireAll ids =>
    obtain rfl := Option.some.inj h
    intro r hr
    obtain hr | rfl : r ∈ s.requests ∨ r = { ids := ids } := by simpa [acquireAll] using hr
    · exact hall r hr
    · exact .inl rfl
  | wake i w =>
    obtain ⟨r, m', r', hi, hw, rfl⟩ := wake_cases h
    have hr := hall r (List.mem_of_getElem? hi)
    have hgranted : ∀ l, r.phase ≠ .granted l := by
      intro l hp
      simp [Outside, hp] at hr
    intro x hx
    obtain hx | rfl := List.mem_or_eq_of_mem_set hx
    · exact hall x hx
    obtain ⟨l, g, -, hg, ⟨hpos, -⟩, -⟩ | ⟨l, hp, -⟩ | ⟨l, exit, hp, -⟩ | ⟨exit, -, he⟩ :=
      progress_cases hw
    · rw [hs.queueTimeoutMs l _ g hg] at hpos
      exact absurd hpos (not_lt.mpr hq)
    · exact absurd hp (hgranted l)
    · exact absurd hp (hgranted l)
    · exact .inr ⟨exit, congrArg (fun p => p.2.phase) he⟩

theorem reaches_outside (hq : limits.queueTimeoutMs ≤ 0) (h : Reaches step (init limits) s) :
    ∀ r ∈ s.requests, Outside r := by
  have hinv := h.invariant (I := fun s => Accounted limits s ∧ ∀ r ∈ s.requests, Outside r)
    (fun s e t hs hstep => ⟨step_accounted s e t hs.1 hstep, step_outside hq hs.1 hs.2 hstep⟩)
    ⟨init_accounted limits, by simp [init]⟩
  exact hinv.2

def waiters (s : System) (l : Level) (n : String) : ℕ :=
  s.requests.countP
    (fun r => n = gateName r.ids l ∧ (r.phase = .waiting l ∨ r.phase = .granted l))

def inFlightSum (registry : Dict String BoundedConcurrencyGate) : ℤ :=
  (registry.items.map (fun e => e.2.inFlight)).sum

theorem held_prefix {r : Request} (hr : r.held = scope r.phase) :
    r.held <+: [.global, .tenant, .route, .backend] := by
  rw [hr]
  cases r.phase with
  | waiting l | granted l => cases l <;> simp [scope, outer]
  | inside => exact List.prefix_rfl
  | left e => exact List.nil_prefix

theorem global_mem_held {r : Request} {l : Level} (hr : r.held = scope r.phase) (hl : l ∈ r.held) :
    .global ∈ r.held := by
  obtain ⟨rest, h⟩ := held_prefix hr
  cases hheld : r.held with
  | nil => simp [hheld] at hl
  | cons a held =>
    rw [hheld, List.cons_append, List.cons.injEq] at h
    simp [h.1]

theorem global_mem_held_of_waiting {r : Request} {l : Level} (hl : l ≠ .global)
    (hr : r.held = scope r.phase) (hp : r.phase = .waiting l ∨ r.phase = .granted l) :
    .global ∈ r.held := by
  obtain hp | hp := hp
  all_goals
    rw [hr, hp]
    cases l <;> simp [scope, outer] at hl ⊢

theorem inFlightSum_le (hs : Accounted limits s) (l : Level)
    (registry : Dict String BoundedConcurrencyGate)
    (hreg : ∀ n g, registry.get? n = some g → s.manager.gate? l n = some g) :
    inFlightSum registry ≤ s.manager.globalGate.inFlight := by
  have hglobal := hs.inFlight .global "global" _ rfl
  have hitems : ∀ e ∈ registry.items, e.2.inFlight = (holders s l e.1 : ℤ) :=
    fun e he => hs.inFlight l e.1 e.2 (hreg e.1 e.2 (registry.get?_eq_some_of_mem he))
  have hsum : inFlightSum registry = ((registry.keys.map (holders s l)).sum : ℕ) := by
    simp only [inFlightSum, Dict.keys, List.map_map, Nat.cast_list_sum]
    exact congrArg List.sum (List.map_congr_left hitems)
  have hcount := sum_countP_le registry.nodup (fun r : Request => gateName r.ids l)
    (fun r => l ∈ r.held) s.requests
  simp only [decide_eq_true_eq] at hcount
  have hmono : s.requests.countP (fun r => l ∈ r.held) ≤ holders s .global "global" := by
    refine List.countP_mono_left (fun r hr hl => ?_)
    have hl := global_mem_held (hs.nested r hr) (by simpa using hl)
    simp [holds, gateName, hl]
  rw [hsum, hglobal]
  exact_mod_cast hcount.trans hmono

/-- Holders and waiters of a gate are distinct requests, and below the global gate each of them
holds a global slot. -/
theorem holders_add_waiters_le (hs : Accounted limits s) {l : Level} (hl : l ≠ .global)
    (n : String) : holders s l n + waiters s l n ≤ limits.maxGlobal := by
  have hglobal := hs.permits .global "global" _ rfl
  have hlimit := hs.limit .global "global" _ rfl
  have hcount : holders s l n + waiters s l n ≤ holders s .global "global" := by
    simp only [holders, waiters]
    refine countP_add_countP_le (fun r hr h => ?_) (fun r hr h => ?_) (fun r hr h h' => ?_)
    · simp only [holds, decide_eq_true_eq] at h ⊢
      exact ⟨rfl, global_mem_held (hs.nested r hr) h.2⟩
    · simp only [holds, decide_eq_true_eq] at h ⊢
      exact ⟨rfl, global_mem_held_of_waiting hl (hs.nested r hr) h.2⟩
    · simp only [holds, decide_eq_true_eq] at h h'
      obtain hp | hp := h'.2
      all_goals
        rw [hs.nested r hr, hp] at h
        exact not_mem_outer l h.2
  simp only [limitOf] at hlimit
  omega

theorem idle_gate (hs : Accounted limits s) (hleft : ∀ r ∈ s.requests, ∃ exit, r.phase = .left exit)
    {l : Level} {n : String} {g : BoundedConcurrencyGate} (hg : s.manager.gate? l n = some g) :
    g.inFlight = 0 ∧ g.permits = g.limit := by
  have hholders : holders s l n = 0 := by
    apply holders_eq_zero
    intro r hr _
    obtain ⟨exit, hp⟩ := hleft r hr
    simp [hs.nested r hr, hp, scope]
  have howners : owners s l n = 0 := by
    apply owners_eq_zero
    intro r hr _
    obtain ⟨exit, hp⟩ := hleft r hr
    simp [hp]
  have hflight := hs.inFlight l n g hg
  have hpermits := hs.permits l n g hg
  omega

/-- Gates never leak and never over-admit, whatever the order of grants, timeouts, failures and
cancellations. -/
theorem gates_accounted {limits : ConcurrencyLimits} {s : System}
    (h : Reaches step (init limits) s) :
    (∀ l n g, s.manager.gate? l n = some g →
      g.limit = limitOf limits l ∧ g.inFlight = holders s l n ∧ g.inFlight ≤ g.limit) ∧
    (∀ r ∈ s.requests, r.held <+: [.global, .tenant, .route, .backend]) ∧
    inFlightSum s.manager.tenantGates ≤ s.manager.globalGate.inFlight ∧
    inFlightSum s.manager.routeGates ≤ s.manager.globalGate.inFlight ∧
    inFlightSum s.manager.backendGates ≤ s.manager.globalGate.inFlight ∧
    (∀ l n, l ≠ .global → holders s l n + waiters s l n ≤ limits.maxGlobal) ∧
    ((∀ r ∈ s.requests, ∃ exit, r.phase = .left exit) →
      ∀ l n g, s.manager.gate? l n = some g → g.inFlight = 0 ∧ g.permits = g.limit) := by
  have hs := reaches_accounted h
  refine ⟨fun l n g hg => ?_, fun r hr => held_prefix (hs.nested r hr),
    inFlightSum_le hs .tenant _ (fun _ _ hg => hg), inFlightSum_le hs .route _ (fun _ _ hg => hg),
    inFlightSum_le hs .backend _ (fun _ _ hg => hg),
    fun l n hl => holders_add_waiters_le hs hl n, fun hleft l n g hg => idle_gate hs hleft hg⟩
  have hflight := hs.inFlight l n g hg
  have hpermits := hs.permits l n g hg
  exact ⟨hs.limit l n g hg, hflight, by omega⟩

def narrowTenant : ConcurrencyLimits := { maxGlobal := 2, maxPerTenant := 1 }

def crowded : List Event :=
  [.acquireAll ⟨"acme", "users", "users-svc"⟩, .acquireAll ⟨"acme", "orders", "orders-svc"⟩,
    .wake 0 .grant, .wake 0 .resume, .wake 0 .grant, .wake 0 .resume,
    .wake 1 .grant, .wake 1 .resume, .wake 0 .grant, .wake 0 .resume]

theorem gates_accounted_crowded : ∃ s, Reaches step (init narrowTenant) s ∧
    s.manager.globalGate.permits = 0 ∧ holders s .global "global" = 2 ∧
    waiters s .tenant "tenant:acme" = 1 ∧
    inFlightSum s.manager.tenantGates ≤ s.manager.globalGate.inFlight := by
  obtain ⟨s, hr, hs⟩ := Reaches.of_check next
    (fun s => s.manager.globalGate.permits = 0 ∧ holders s .global "global" = 2 ∧
      waiters s .tenant "tenant:acme" = 1) (init narrowTenant) crowded
    (by decide +kernel)
  simp only [decide_eq_true_eq] at hs
  exact ⟨s, hr, hs.1, hs.2.1, hs.2.2, (gates_accounted hr).2.2.1⟩

end Sentinel.GateAccounting
