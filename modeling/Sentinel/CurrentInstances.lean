import Sentinel.RoundRobin

namespace Sentinel.CurrentInstances

open Router Selection
open RoundRobin (draws draws_length)

structure Call where
  service : String
  instances : List Ref
  fleet : Fleet
  shuffle : Shuffle

/-- Whether the returned object stands for an instance of the list: it is healthy and has the host
and the port of a listed one. -/
def Current (c : Call) (r : Ref) : Prop :=
  (c.fleet.get r).status = .healthy ∧
    ∃ r' ∈ c.instances, (c.fleet.get r').host = (c.fleet.get r).host ∧
      (c.fleet.get r').port = (c.fleet.get r).port ∧
      (c.fleet.get r').status = (c.fleet.get r).status

def after (sel : WeightedRoundRobinSelector) (c : Call) : WeightedRoundRobinSelector :=
  (sel.select c.fleet c.shuffle c.service c.instances).1

def returned (sel : WeightedRoundRobinSelector) (c : Call) : Option Ref :=
  (sel.select c.fleet c.shuffle c.service c.instances).2

def run (calls : List Call) : WeightedRoundRobinSelector := calls.foldl after {}

/-- When the ids and weights are those of the remembered cycle, every object of the cycle still
stands for an instance of the list. -/
def Fresh (sel : WeightedRoundRobinSelector) (c : Call) : Prop :=
  routable c.fleet c.instances ≠ [] → ∀ e, sel.cycles.get? c.service = some e →
    e.signature = (routable c.fleet c.instances).map (sign c.fleet) →
    ∀ r ∈ e.cycle.items, Current c r

section

variable {c : Call} {sel : WeightedRoundRobinSelector} {r : Ref}

theorem current_of_routable (h : r ∈ routable c.fleet c.instances) : Current c r :=
  ⟨(mem_routable.mp h).2, r, (mem_routable.mp h).1, rfl, rfl, rfl⟩

theorem current_of_fresh (hf : Fresh sel c) (h : returned sel c = some r) : Current c r := by
  obtain ⟨-, hselect⟩ | ⟨hne, cycle, hitems, hselect⟩ :=
    select_cases c.fleet sel c.service c.shuffle c.instances
  · rw [returned, hselect] at h
    cases h
  · rw [returned, hselect] at h
    cases h
    obtain hp | ⟨e, he, hsig, rfl⟩ := hitems
    · exact current_of_routable (mem_of_mem_expanded (hp.mem_iff.mp (current_mem cycle)))
    · exact hf hne e he hsig _ (current_mem e.cycle)

theorem exists_current_of_mem_draws {cycle : Cycle} {n : ℕ} (h : r ∈ draws cycle n) :
    ∃ k, (Cycle.advance^[k] cycle).current = r := by
  induction n generalizing cycle with
  | zero => cases h
  | succ n ih =>
    obtain rfl | h := List.mem_cons.mp h
    · exact ⟨0, rfl⟩
    · obtain ⟨k, hk⟩ := ih h
      exact ⟨k + 1, hk⟩

theorem exists_current_of_mem {cycle : Cycle} (h : r ∈ cycle.items) :
    ∃ k, (Cycle.advance^[k] cycle).current = r := by
  apply exists_current_of_mem_draws (n := cycle.items.length)
  rw [draws_length]
  exact List.mem_rotate.mpr h

theorem repeat_cached (hne : routable c.fleet c.instances ≠ []) {cycle : Cycle}
    (he : sel.cycles.get? c.service =
      some ⟨(routable c.fleet c.instances).map (sign c.fleet), cycle⟩) (n : ℕ) :
    ((fun sel => after sel c)^[n] sel).cycles.get? c.service =
        some ⟨(routable c.fleet c.instances).map (sign c.fleet), Cycle.advance^[n] cycle⟩ ∧
      returned ((fun sel => after sel c)^[n] sel) c = some (Cycle.advance^[n] cycle).current := by
  have hcycle : ∀ (sel : WeightedRoundRobinSelector) (cycle : Cycle),
      sel.cycles.get? c.service =
        some ⟨(routable c.fleet c.instances).map (sign c.fleet), cycle⟩ →
      cycleFor c.fleet sel c.service c.shuffle c.instances hne = cycle := by
    intro sel cycle he
    simp only [cycleFor, he, ↓reduceIte]
  have hstored : ((fun sel => after sel c)^[n] sel).cycles.get? c.service =
      some ⟨(routable c.fleet c.instances).map (sign c.fleet), Cycle.advance^[n] cycle⟩ := by
    induction n with
    | zero => exact he
    | succ n ih =>
      rw [Function.iterate_succ_apply', Function.iterate_succ_apply', after,
        select_of_routable c.fleet _ c.service c.shuffle c.instances hne, hcycle _ _ ih,
        Dict.get?_set, if_pos rfl]
  refine ⟨hstored, ?_⟩
  rw [returned, select_of_routable c.fleet _ c.service c.shuffle c.instances hne,
    hcycle _ _ hstored]

theorem fresh_of_repeat (h : ∀ n r, returned ((fun sel => after sel c)^[n] sel) c = some r →
    Current c r) : Fresh sel c := by
  intro hne e he hsig r hr
  obtain ⟨signature, cycle⟩ := e
  obtain rfl : signature = (routable c.fleet c.instances).map (sign c.fleet) := hsig
  obtain ⟨k, rfl⟩ := exists_current_of_mem hr
  exact h k _ (repeat_cached hne he k).2

theorem fresh_after (hf : Fresh sel c) : Fresh (after sel c) c := by
  intro hne e he hsig r hr
  obtain ⟨hnil, -⟩ | ⟨-, cycle, hitems, hselect⟩ :=
    select_cases c.fleet sel c.service c.shuffle c.instances
  · exact absurd hnil hne
  · rw [after, hselect, Dict.get?_set, if_pos rfl] at he
    cases he
    obtain hp | ⟨e, hcached, hsame, rfl⟩ := hitems
    · exact current_of_routable (mem_of_mem_expanded (hp.mem_iff.mp hr))
    · exact hf hne e hcached hsame r hr

end

/-- In every run whose calls all find the remembered objects up to date, every returned object
stands for an instance of the list passed to its own call; and a call that finds an outdated object
returns it, if it is only repeated often enough. -/
theorem selection_current (calls : List Call) :
    ((∀ done c, done ++ [c] <+: calls → Fresh (run done) c) →
      ∀ done c, done ++ [c] <+: calls → ∀ r, returned (run done) c = some r → Current c r) ∧
    ∀ c, (∀ n r, returned ((fun sel => after sel c)^[n] (run calls)) c = some r → Current c r) ↔
      Fresh (run calls) c := by
  refine ⟨fun hf done c hdone r hr => current_of_fresh (hf done c hdone) hr, fun c => ?_⟩
  refine ⟨fresh_of_repeat, fun hf n => ?_⟩
  have hfn : Fresh ((fun sel => after sel c)^[n] (run calls)) c := by
    induction n with
    | zero => exact hf
    | succ n ih =>
      rw [Function.iterate_succ_apply']
      exact fresh_after ih
  exact fun r hr => current_of_fresh hfn hr

def moved : Fleet where
  get r := { id := "u1", host := if r = 0 then "old" else "new", port := 8080, status := .healthy }
  byService := .empty

def selectUsers (instances : List Ref) : Call := ⟨"users-svc", instances, moved, ⟨id, .refl⟩⟩

theorem selection_current_again : ∀ r,
    returned (run [selectUsers [0]]) (selectUsers [0]) = some r →
      Current (selectUsers [0]) r := by
  have hfresh : Fresh (run [selectUsers [0]]) (selectUsers [0]) := by
    intro _ e he _ r hr
    have hitems : e.cycle.items = [0] := by
      have h : ((run [selectUsers [0]]).cycles.get? "users-svc").map (fun e => e.cycle.items) =
          some [0] := by decide +kernel
      rw [show (run [selectUsers [0]]).cycles.get? "users-svc" = some e from he] at h
      exact Option.some.inj h
    rw [hitems, List.mem_singleton] at hr
    subst hr
    exact current_of_routable (by decide +kernel)
  exact fun r hr => ((selection_current [selectUsers [0]]).2 _).mpr hfresh 0 r hr

/-- The instance is replaced by a new object on another host, and the old object is returned. -/
theorem replaced_instance_returned :
    (∀ c ∈ [selectUsers [0], selectUsers [1]],
      (c.instances.map (fun r => (c.fleet.get r).id)).Nodup) ∧
    ∃ r, returned (run [selectUsers [0]]) (selectUsers [1]) = some r ∧
      ¬Current (selectUsers [1]) r := by
  refine ⟨by decide, 0, by decide +kernel, ?_⟩
  rintro ⟨-, r', hr', hhost, -⟩
  obtain rfl : r' = 1 := List.mem_singleton.mp hr'
  revert hhost
  decide

end Sentinel.CurrentInstances
