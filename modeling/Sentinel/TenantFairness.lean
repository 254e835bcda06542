import Sentinel.GateAccounting

namespace Sentinel.TenantFairness

open Runs Gates GateMoves GateAccounting

/-- The global slots held by requests of a tenant, running or waiting for a narrower gate. -/
def heldByTenant (s : System) (tenantId : String) : ℕ :=
  s.requests.countP (fun r => r.ids.tenantId = tenantId ∧ .global ∈ r.held)

variable {limits : ConcurrencyLimits}

theorem heldByTenant_le_maxGlobal {s : System} (hs : Accounted limits s) (tenantId : String) :
    heldByTenant s tenantId ≤ limits.maxGlobal := by
  have hcount : heldByTenant s tenantId ≤ holders s .global "global" := by
    refine List.countP_mono_left (fun r _ h => ?_)
    simp only [decide_eq_true_eq] at h
    simp [holds, gateName, h.2]
  have hpermits := hs.permits .global "global" _ rfl
  have hlimit := hs.limit .global "global" _ rfl
  simp only [limitOf] at hlimit
  omega

/-- A request that holds a global slot and waits at its tenant's gate. -/
def queued (ids : Ids) : Request := { ids := ids, phase := .waiting .tenant, held := [.global] }

theorem enters_global {s : System} (ids : Ids)
    (htime : 0 < s.manager.globalGate.queueTimeoutMs)
    (hfree : 0 < s.manager.globalGate.permits) :
    ∃ t, Reaches step s t ∧ t.requests = s.requests ++ [queued ids] := by
  let m := s.manager.register ids
  let i := s.requests.length
  have hgate : m.gate? .global "global" = some s.manager.globalGate := rfl
  let s₁ : System := ⟨m, s.requests ++ [{ ids := ids }]⟩
  let s₂ : System := ⟨m.update .grant .global "global",
    s.requests ++ [{ ids := ids, phase := .granted .global }]⟩
  let s₃ : System := ⟨(m.update .grant .global "global").update .enter .global "global",
    s.requests ++ [queued ids]⟩
  have h₁ : step s (.acquireAll ids) s₁ := rfl
  have h₂ : step s₁ (.wake i .grant) s₂ := by
    simp [step, next, progress, s₁, s₂, i, gateName, hgate, htime, hfree]
  have h₃ : step s₂ (.wake i .resume) s₃ := by
    simp [step, next, progress, s₂, s₃, i, gateName, after, queued]
  exact ⟨s₃, .head h₁ (.head h₂ (.head h₃ (.refl s₃))), rfl⟩

theorem flood (hq : 0 < limits.queueTimeoutMs) (ids : Ids) {k : ℕ} (hk : k ≤ limits.maxGlobal) :
    ∃ s, Reaches step (init limits) s ∧ s.requests = List.replicate k (queued ids) := by
  induction k with
  | zero => exact ⟨init limits, .refl _, rfl⟩
  | succ k ih =>
    obtain ⟨s, hr, hreqs⟩ := ih (by omega)
    have hs := reaches_accounted hr
    have hpermits := hs.permits .global "global" _ rfl
    have hlimit := hs.limit .global "global" _ rfl
    have howners : owners s .global "global" = 0 := by simp [owners, hreqs, owns, queued]
    have hholders : holders s .global "global" ≤ k := by
      rw [holders, hreqs]
      exact List.countP_le_length.trans (List.length_replicate.le)
    simp only [limitOf] at hlimit
    have hfree : 0 < s.manager.globalGate.permits := by omega
    have htime : 0 < s.manager.globalGate.queueTimeoutMs := by
      rwa [hs.queueTimeoutMs .global "global" _ rfl]
    obtain ⟨t, ht, htreqs⟩ := enters_global ids htime hfree
    exact ⟨t, hr.trans ht, by rw [htreqs, hreqs, List.replicate_succ']⟩

theorem heldByTenant_eq_zero (hq : limits.queueTimeoutMs ≤ 0) {s : System}
    (h : Reaches step (init limits) s) (tenantId : String) : heldByTenant s tenantId = 0 := by
  refine List.countP_eq_zero.mpr (fun r hr => ?_)
  have hheld : r.held = [] := by
    rw [(reaches_accounted h).nested r hr]
    obtain hp | ⟨exit, hp⟩ := reaches_outside hq h r hr <;> rw [hp] <;> rfl
  simp [hheld]

/-- A tenant stays within its own limit at the global gate exactly when that gate is no wider, or
nobody has the time to pass it. -/
theorem heldByTenant_le_iff (limits : ConcurrencyLimits) :
    (∀ s, Reaches step (init limits) s →
      ∀ tenantId, heldByTenant s tenantId ≤ limits.maxPerTenant) ↔
        limits.maxGlobal ≤ limits.maxPerTenant ∨ limits.queueTimeoutMs ≤ 0 := by
  constructor
  · intro h
    by_contra hlt
    rw [not_or, not_le, not_le] at hlt
    obtain ⟨s, hr, hreqs⟩ := flood hlt.2 ⟨"acme", "users", "users-svc"⟩
      (k := limits.maxPerTenant + 1) hlt.1
    have hle := h s hr "acme"
    simp [heldByTenant, hreqs, queued, List.countP_replicate] at hle
  · rintro (hle | hq) s hr tenantId
    · exact (heldByTenant_le_maxGlobal (reaches_accounted hr) tenantId).trans hle
    · rw [heldByTenant_eq_zero hq hr]
      exact Nat.zero_le _

theorem flood_exhausts_global : ∃ s, Reaches step (init narrowTenant) s ∧
    narrowTenant.maxPerTenant < heldByTenant s "acme" ∧ s.manager.globalGate.permits = 0 := by
  obtain ⟨s, hr, hs⟩ := Reaches.of_check next
    (fun s => narrowTenant.maxPerTenant < heldByTenant s "acme" ∧ s.manager.globalGate.permits = 0)
    (init narrowTenant)
    [.acquireAll ⟨"acme", "users", "users-svc"⟩, .acquireAll ⟨"acme", "users", "users-svc"⟩,
      .wake 0 .grant, .wake 0 .resume, .wake 1 .grant, .wake 1 .resume] (by decide +kernel)
  simp only [decide_eq_true_eq] at hs
  exact ⟨s, hr, hs⟩

end Sentinel.TenantFairness
