import Sentinel.Gates
import Mathlib.Tactic.Linarith

namespace Sentinel.GateMoves

open Gates ConcurrencyManager

theorem gate?_update (m : ConcurrencyManager) (f : BoundedConcurrencyGate → BoundedConcurrencyGate)
    (l l' : Level) (n n' : String) :
    (m.update f l n).gate? l' n' =
      (m.gate? l' n').map (fun g => if l' = l ∧ n' = n then f g else g) := by
  cases l with
  | global =>
    by_cases hn : n = "global"
    · subst hn
      cases l' <;> by_cases hn' : n' = "global" <;> simp [update, gate?, hn']
    · cases l' <;> by_cases hn' : n' = "global" <;> simp [update, gate?, hn, hn', Ne.symm hn]
  | tenant | route | backend => cases l' <;> simp [update, gate?, Dict.get?_modify]

@[simp] theorem update_limits (m : ConcurrencyManager)
    (f : BoundedConcurrencyGate → BoundedConcurrencyGate) (l : Level) (n : String) :
    (m.update f l n).limits = m.limits := by
  cases l with
  | global => by_cases hn : n = "global" <;> simp [update, hn]
  | tenant | route | backend => rfl

theorem unwind_limits (ls : List Level) (exit : Exit) (m : ConcurrencyManager) (r : Request) :
    (unwind ls exit m r).1.limits = m.limits := by
  induction ls with
  | nil => rfl
  | cons l ls ih => exact (update_limits _ _ _ _).trans ih

theorem gate?_register (m : ConcurrencyManager) (ids : Ids) (l : Level) (n : String) :
    (m.register ids).gate? l n = (m.gate? l n).or
      (if l ≠ .global ∧ n = gateName ids l then
        some (.new n (limitOf m.limits l) m.limits.queueTimeoutMs) else none) := by
  have hdict : ∀ (d : Dict String BoundedConcurrencyGate) (key : String) (limit : ℕ),
      (m.getOrCreate d key limit).get? n = (d.get? n).or
        (if n = key then some (.new n limit m.limits.queueTimeoutMs) else none) := by
    intro d key limit
    unfold getOrCreate
    by_cases hn : n = key
    · subst hn
      cases hg : d.get? n <;> simp [hg, Dict.get?_set]
    · cases hg : d.get? key <;> simp [hn, Dict.get?_set]
  cases l <;> simp [register, gate?, hdict, limitOf]

theorem gate?_unwind (ls : List Level) (hls : ls.Nodup) (exit : Exit) (m : ConcurrencyManager)
    (r : Request) (l : Level) (n : String) :
    (unwind ls exit m r).1.gate? l n =
      (m.gate? l n).map (fun g => if l ∈ ls ∧ n = gateName r.ids l then g.leave else g) := by
  induction ls with
  | nil => simp [unwind]
  | cons a ls ih =>
    have hd := List.nodup_cons.mp hls
    have hm := gate?_update (unwind ls exit m r).1 .leave a l (gateName r.ids a) n
    have hu : (unwind (a :: ls) exit m r).1 =
        (unwind ls exit m r).1.update .leave a (gateName r.ids a) := rfl
    rw [hu, hm, ih hd.2, Option.map_map]
    congr 1
    funext g
    by_cases hla : l = a
    · subst hla
      simp [hd.1]
    · simp [hla]

/-- The blocks that a request is lexically inside of. -/
def scope : Phase → List Level
  | .waiting l | .granted l => outer l
  | .inside => [.global, .tenant, .route, .backend]
  | .left _ => []

theorem progress_cases {m m' : ConcurrencyManager} {r r' : Request} {w : Wake}
    (h : progress m r w = some (m', r')) :
    (∃ l g, r.phase = .waiting l ∧ m.gate? l (gateName r.ids l) = some g ∧
      (0 < g.queueTimeoutMs ∧ 0 < g.permits) ∧
      m' = m.update .grant l (gateName r.ids l) ∧ r' = { r with phase := .granted l }) ∨
    (∃ l, r.phase = .granted l ∧ m' = m.update .enter l (gateName r.ids l) ∧
      r' = { r with phase := after l, held := r.held ++ [l] }) ∨
    (∃ l exit, r.phase = .granted l ∧
      (m', r') = unwind (outer l) exit (m.update .refund l (gateName r.ids l)) r) ∨
    (∃ exit, (∀ l, r.phase ≠ .granted l) ∧ (m', r') = unwind (scope r.phase) exit m r) := by
  cases w with
  | grant =>
    cases hp : r.phase with
    | waiting l =>
      cases hg : m.gate? l (gateName r.ids l) with
      | none => simp [progress, hp, hg] at h
      | some g =>
        by_cases hpos : 0 < g.queueTimeoutMs ∧ 0 < g.permits
        · simp only [progress, hp, hg, if_pos hpos, Option.some.injEq, Prod.mk.injEq] at h
          exact .inl ⟨l, g, rfl, hg, hpos, h.1.symm, h.2.symm⟩
        · simp [progress, hp, hg, if_neg hpos] at h
    | granted l | inside | left e => simp [progress, hp] at h
  | resume =>
    cases hp : r.phase with
    | granted l =>
      simp only [progress, hp, Option.some.injEq, Prod.mk.injEq] at h
      exact .inr (.inl ⟨l, rfl, h.1.symm, h.2.symm⟩)
    | waiting l | inside | left e => simp [progress, hp] at h
  | timeout =>
    cases hp : r.phase with
    | waiting l =>
      simp only [progress, hp, Option.some.injEq] at h
      exact .inr (.inr (.inr ⟨_, by simp, h.symm⟩))
    | granted l =>
      simp only [progress, hp, Option.some.injEq] at h
      exact .inr (.inr (.inl ⟨l, _, rfl, h.symm⟩))
    | inside | left e => simp [progress, hp] at h
  | cancel =>
    cases hp : r.phase with
    | waiting l | inside =>
      simp only [progress, hp, Option.some.injEq] at h
      exact .inr (.inr (.inr ⟨_, by simp, h.symm⟩))
    | granted l =>
      simp only [progress, hp, Option.some.injEq] at h
      exact .inr (.inr (.inl ⟨l, _, rfl, h.symm⟩))
    | left e => simp [progress, hp] at h
  | finish | fail =>
    cases hp : r.phase with
    | inside =>
      simp only [progress, hp, Option.some.injEq] at h
      exact .inr (.inr (.inr ⟨_, by simp, h.symm⟩))
    | waiting l | granted l | left e => simp [progress, hp] at h

theorem progress_ids {m m' : ConcurrencyManager} {r r' : Request} {w : Wake}
    (h : progress m r w = some (m', r')) : r'.ids = r.ids := by
  obtain ⟨l, g, -, -, -, -, rfl⟩ | ⟨l, -, -, rfl⟩ | ⟨l, exit, -, he⟩ | ⟨exit, -, he⟩ :=
    progress_cases h
  · rfl
  · rfl
  · rw [show r' = _ from congrArg Prod.snd he]
    rfl
  · rw [show r' = _ from congrArg Prod.snd he]
    rfl

def holds (l : Level) (n : String) (r : Request) : Bool := n = gateName r.ids l ∧ l ∈ r.held

def owns (l : Level) (n : String) (r : Request) : Bool :=
  n = gateName r.ids l ∧ r.phase = .granted l

/-- What one move of one request does to a gate: its count follows the request in and out, and
no permit appears or vanishes. -/
structure Moves (l : Level) (n : String) (r r' : Request) (g g' : BoundedConcurrencyGate) :
    Prop where
  limit : g'.limit = g.limit
  queueTimeoutMs : g'.queueTimeoutMs = g.queueTimeoutMs
  inFlight : g'.inFlight + (holds l n r).toNat = g.inFlight + (holds l n r').toNat
  permits : g'.permits + (owns l n r').toNat + (holds l n r').toNat =
    g.permits + (owns l n r).toNat + (holds l n r).toNat

theorem Moves.trans {l : Level} {n : String} {r r' r'' : Request}
    {g g' g'' : BoundedConcurrencyGate} (h : Moves l n r r' g g') (h' : Moves l n r' r'' g' g'') :
    Moves l n r r'' g g'' :=
  ⟨h'.limit.trans h.limit, h'.queueTimeoutMs.trans h.queueTimeoutMs,
    by linarith [h.inFlight, h'.inFlight], by linarith [h.permits, h'.permits]⟩

theorem outer_nodup (l : Level) : (outer l).Nodup := by
  cases l <;> decide

theorem scope_nodup (p : Phase) : (scope p).Nodup := by
  cases p with
  | waiting l | granted l => exact outer_nodup l
  | inside => decide
  | left e => exact List.nodup_nil

theorem not_mem_outer (l : Level) : l ∉ outer l := by
  cases l <;> decide

theorem scope_after (l : Level) : scope (after l) = outer l ++ [l] := by
  cases l <;> rfl

theorem foldr_erase_self (l : Level) :
    (outer l).foldr (fun l held => held.erase l) (outer l) = [] := by
  cases l <;> decide

theorem unwind_held {p : Phase} (exit : Exit) (m : ConcurrencyManager) {r : Request}
    (hr : r.held = scope p) : (unwind (scope p) exit m r).2.held = [] := by
  simp only [unwind, hr]
  cases p with
  | waiting l | granted l => exact foldr_erase_self l
  | inside => decide
  | left e => rfl

theorem unwind_moves {p : Phase} (exit : Exit) (m : ConcurrencyManager) {r : Request}
    (hr : r.held = scope p) (hp : ∀ l, r.phase ≠ .granted l) (l : Level) (n : String) :
    ∃ f, (unwind (scope p) exit m r).1.gate? l n = (m.gate? l n).map f ∧
      ∀ g, Moves l n r (unwind (scope p) exit m r).2 g (f g) := by
  refine ⟨_, gate?_unwind (scope p) (scope_nodup p) exit m r l n, fun g => ?_⟩
  have hh : holds l n (unwind (scope p) exit m r).2 = false := by
    simp [holds, unwind_held exit m hr]
  have ho : owns l n (unwind (scope p) exit m r).2 = false := by simp [owns, unwind]
  have ho' : owns l n r = false := by simp [owns, hp l]
  by_cases hl : l ∈ scope p ∧ n = gateName r.ids l
  · have hh' : holds l n r = true := by simp [holds, hr, hl.1, hl.2]
    rw [if_pos hl]
    constructor <;> simp [hh, ho, hh', ho', BoundedConcurrencyGate.leave]
  · have hh' : holds l n r = false := by
      simp only [holds, hr, decide_eq_false_iff_not]
      exact fun h => hl ⟨h.2, h.1⟩
    rw [if_neg hl]
    constructor <;> simp [hh, ho, hh', ho']

theorem update_moves (m : ConcurrencyManager)
    (f : BoundedConcurrencyGate → BoundedConcurrencyGate) (l : Level) {r r' : Request}
    (hids : r'.ids = r.ids)
    (hother : ∀ l', l' ≠ l → (l' ∈ r'.held ↔ l' ∈ r.held) ∧
      (r'.phase = .granted l' ↔ r.phase = .granted l'))
    (hf : ∀ g, m.gate? l (gateName r.ids l) = some g →
      Moves l (gateName r.ids l) r r' g (f g)) (l' : Level) (n : String) :
    ∃ f', (m.update f l (gateName r.ids l)).gate? l' n = (m.gate? l' n).map f' ∧
      ∀ g, m.gate? l' n = some g → Moves l' n r r' g (f' g) := by
  refine ⟨_, gate?_update m f l l' (gateName r.ids l) n, fun g hg => ?_⟩
  by_cases hl : l' = l
  · subst hl
    by_cases hn : n = gateName r.ids l'
    · subst hn
      simpa using hf g hg
    · simp only [hn, and_false, ↓reduceIte]
      constructor <;> simp [holds, owns, hids, hn]
  · obtain ⟨hheld, hphase⟩ := hother l' hl
    simp only [hl, false_and, ↓reduceIte]
    constructor <;> simp [holds, owns, hids, hheld, hphase]

/-- The one law of the gates: whatever a request does next, it stays inside the blocks it has
entered, and each gate moves with it. -/
theorem progress_moves {m m' : ConcurrencyManager} {r r' : Request} {w : Wake}
    (h : progress m r w = some (m', r')) (hr : r.held = scope r.phase) :
    m'.limits = m.limits ∧ r'.ids = r.ids ∧ r'.held = scope r'.phase ∧
      ∀ l n, ∃ f, m'.gate? l n = (m.gate? l n).map f ∧
        ∀ g, m.gate? l n = some g → Moves l n r r' g (f g) := by
  obtain ⟨l, g, hp, hg, ⟨-, hpos⟩, rfl, rfl⟩ | ⟨l, hp, rfl, rfl⟩ | ⟨l, exit, hp, he⟩ |
    ⟨exit, hp, he⟩ := progress_cases h
  · refine ⟨update_limits m _ l _, rfl, by simp [hr, hp, scope], update_moves m _ l rfl ?_ ?_⟩
    · intro l' hl
      simp [hp, Ne.symm hl]
    · intro g' hg'
      rw [hg] at hg'
      obtain rfl := Option.some.inj hg'
      constructor
      · rfl
      · rfl
      · simp [holds, BoundedConcurrencyGate.grant]
      · simp only [holds, owns, hp, BoundedConcurrencyGate.grant, true_and, decide_true,
          Bool.toNat_true, reduceCtorEq, and_false, decide_false, Bool.toNat_false]
        omega
  · have hl : l ∉ r.held := by
      rw [hr, hp]
      exact not_mem_outer l
    refine ⟨update_limits m _ l _, rfl, ?_, update_moves m _ l rfl ?_ ?_⟩
    · rw [hr, hp]
      exact (scope_after l).symm
    · intro l' hl'
      cases l <;> simp [hp, hl', after, Ne.symm hl']
    · intro g _
      have ha : after l ≠ .granted l := by cases l <;> simp [after]
      constructor
      · rfl
      · rfl
      · simp [holds, hl, BoundedConcurrencyGate.enter]
      · simp [holds, owns, hp, hl, ha, BoundedConcurrencyGate.enter]
  · -- the permit is handed back first: the request unwinds as if it were still waiting
    let r₁ : Request := { r with phase := .waiting l }
    have hr₁ : r₁.held = scope (.waiting l) := by
      rw [show r₁.held = r.held from rfl, hr, hp]
      rfl
    have hm' : m' = (unwind (scope (.waiting l)) exit
        (m.update .refund l (gateName r.ids l)) r₁).1 := congrArg Prod.fst he
    have hr' : r' = (unwind (scope (.waiting l)) exit
        (m.update .refund l (gateName r.ids l)) r₁).2 := congrArg Prod.snd he
    rw [hm', hr']
    refine ⟨(unwind_limits _ _ _ _).trans (update_limits _ _ _ _), rfl, unwind_held _ _ hr₁, ?_⟩
    intro l' n
    obtain ⟨f₁, hf₁, hm₁⟩ := update_moves m .refund l (show r₁.ids = r.ids from rfl)
      (fun l'' hl => by simp [r₁, hp, Ne.symm hl])
      (fun g _ => by constructor <;> simp [holds, owns, hp, r₁, BoundedConcurrencyGate.refund]) l' n
    obtain ⟨f₂, hf₂, hm₂⟩ := unwind_moves exit (m.update .refund l (gateName r.ids l))
      hr₁ (by simp [r₁]) l' n
    refine ⟨f₂ ∘ f₁, by rw [hf₂, hf₁, Option.map_map], fun g hg => ?_⟩
    exact (hm₁ g hg).trans (hm₂ (f₁ g))
  · have hm' : m' = (unwind (scope r.phase) exit m r).1 := congrArg Prod.fst he
    have hr' : r' = (unwind (scope r.phase) exit m r).2 := congrArg Prod.snd he
    rw [hm', hr']
    refine ⟨unwind_limits _ _ m r, rfl, unwind_held exit m hr, fun l n => ?_⟩
    obtain ⟨f, hf, hm⟩ := unwind_moves exit m hr hp l n
    exact ⟨f, hf, fun g _ => hm g⟩

end Sentinel.GateMoves
