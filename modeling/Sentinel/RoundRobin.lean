import Sentinel.Selection
import Mathlib.Algebra.Order.BigOperators.Group.List
import Mathlib.Algebra.Order.Ring.Nat
import Mathlib.Data.List.Rotate

namespace Sentinel.RoundRobin

open Router Selection

def share (p : String × ℤ) : ℕ := (max 1 p.2).toNat

def slots (signature : List (String × ℤ)) : List String :=
  signature.flatMap (fun p => List.replicate (share p) p.1)

theorem length_slots (signature : List (String × ℤ)) :
    (slots signature).length = (signature.map share).sum := by
  simp [slots, List.length_flatMap]

theorem count_slots_eq_zero {signature : List (String × ℤ)} {id : String}
    (h : id ∉ signature.map Prod.fst) : (slots signature).count id = 0 := by
  rw [List.count_eq_zero]
  intro hm
  obtain ⟨p, hp, hid⟩ := List.mem_flatMap.mp hm
  rw [List.eq_of_mem_replicate hid] at h
  exact h (List.mem_map_of_mem hp)

theorem count_slots {signature : List (String × ℤ)} (hd : (signature.map Prod.fst).Nodup)
    {p : String × ℤ} (hp : p ∈ signature) : (slots signature).count p.1 = share p := by
  induction signature with
  | nil => cases hp
  | cons q signature ih =>
    rw [List.map_cons, List.nodup_cons] at hd
    have hsplit : (slots (q :: signature)).count p.1 =
        (List.replicate (share q) q.1).count p.1 + (slots signature).count p.1 := by
      simp [slots, List.count_append]
    rw [hsplit]
    obtain rfl | hp := List.mem_cons.mp hp
    · rw [count_slots_eq_zero hd.1, List.count_replicate_self, Nat.add_zero]
    · have hne : p.1 ≠ q.1 := fun he => hd.1 (he ▸ List.mem_map_of_mem hp)
      rw [ih hd.2 hp, List.count_eq_zero.mpr (fun hm => hne (List.eq_of_mem_replicate hm)),
        Nat.zero_add]

/-- The next `n` items of a cycle. -/
def draws (c : Cycle) : ℕ → List Ref
  | 0 => []
  | n + 1 => c.current :: draws c.advance n

theorem length_draws (c : Cycle) (n : ℕ) : (draws c n).length = n := by
  induction n generalizing c with
  | zero => rfl
  | succ n ih => simp [draws, ih]

theorem getElem_draws (c : Cycle) (n k : ℕ) (hk : k < (draws c n).length) :
    (draws c n)[k] = c.items.get ⟨(k + c.pos) % c.items.length, Nat.mod_lt _ c.pos.pos⟩ := by
  induction n generalizing c k with
  | zero => cases hk
  | succ n ih =>
    cases k with
    | zero => simp [draws, Cycle.current, Nat.mod_eq_of_lt c.pos.isLt]
    | succ k =>
      have hpos : (k + (c.pos + 1) % c.items.length) % c.items.length =
          (k + 1 + c.pos) % c.items.length := by
        rw [Nat.add_mod_mod]
        congr 1
        omega
      simp only [draws, List.getElem_cons_succ]
      rw [ih]
      exact congrArg c.items.get (Fin.ext hpos)

theorem draws_length (c : Cycle) : draws c c.items.length = c.items.rotate c.pos := by
  apply List.ext_getElem
  · simp [length_draws]
  · intro k hk _
    rw [getElem_draws, List.getElem_rotate]
    rfl

/-- A call of `select`: the instances as they are then, and the shuffle it would make. The `id`
of an instance is set when the instance is made. -/
structure Call (ids : Ref → String) where
  service : String
  instances : List Ref
  fleet : Fleet
  shuffle : Shuffle
  id_eq : ∀ r, (fleet.get r).id = ids r

variable {ids : Ref → String}

def Call.signature (c : Call ids) : List (String × ℤ) :=
  (routable c.fleet c.instances).map (sign c.fleet)

def after (sel : WeightedRoundRobinSelector) (c : Call ids) : WeightedRoundRobinSelector :=
  (sel.select c.fleet c.shuffle c.service c.instances).1

def returned (s : String) (sel : WeightedRoundRobinSelector) : List (Call ids) → List Ref
  | [] => []
  | c :: cs =>
    (if c.service = s then (sel.select c.fleet c.shuffle c.service c.instances).2.toList else []) ++
      returned s (after sel c) cs

/-- The items of every cached cycle are those its signature asks for. -/
def Weighted (ids : Ref → String) (sel : WeightedRoundRobinSelector) : Prop :=
  ∀ s e, sel.cycles.get? s = some e → (e.cycle.items.map ids).Perm (slots e.signature)

theorem map_expanded (c : Call ids) :
    (expanded c.fleet (routable c.fleet c.instances)).map ids = slots c.signature := by
  simp only [expanded, slots, Call.signature, List.map_flatMap, List.flatMap_map]
  simp [share, sign, c.id_eq]

theorem select_weighted {sel : WeightedRoundRobinSelector} (hw : Weighted ids sel) (c : Call ids)
    (h : c.signature ≠ []) :
    ∃ cycle : Cycle, (cycle.items.map ids).Perm (slots c.signature) ∧
      sel.select c.fleet c.shuffle c.service c.instances =
        (⟨sel.cycles.set c.service ⟨c.signature, cycle.advance⟩⟩, some cycle.current) ∧
      ∀ e, sel.cycles.get? c.service = some e → e.signature = c.signature → cycle = e.cycle := by
  have hr : routable c.fleet c.instances ≠ [] := fun he => h (by simp [Call.signature, he])
  refine ⟨cycleFor c.fleet sel c.service c.shuffle c.instances hr, ?_,
    select_of_routable c.fleet sel c.service c.shuffle c.instances hr, ?_⟩
  · obtain hp | ⟨e, he, hsig, hcycle⟩ :=
      cycleFor_cases c.fleet sel c.service c.shuffle c.instances hr
    · rw [← map_expanded]
      exact hp.map ids
    · rw [hcycle, Call.signature, ← hsig]
      exact hw c.service e he
  · intro e he hsig
    simp only [cycleFor, he]
    exact if_pos hsig

theorem after_weighted {sel : WeightedRoundRobinSelector} (hw : Weighted ids sel) (c : Call ids) :
    Weighted ids (after sel c) := by
  by_cases h : c.signature = []
  · have hr : routable c.fleet c.instances = [] := List.map_eq_nil_iff.mp h
    have hsel : after sel c = sel := congrArg Prod.fst (dif_pos hr)
    rwa [hsel]
  · obtain ⟨cycle, hp, hselect, -⟩ := select_weighted hw c h
    intro s e he
    rw [after, hselect, Dict.get?_set] at he
    split_ifs at he
    · cases he
      exact hp
    · exact hw s e he

theorem after_get?_of_ne {sel : WeightedRoundRobinSelector} {s : String} {c : Call ids}
    (h : c.service ≠ s) : (after sel c).cycles.get? s = sel.cycles.get? s := by
  obtain ⟨-, hselect⟩ | ⟨-, _, -, hselect⟩ :=
    select_cases c.fleet sel c.service c.shuffle c.instances
  · rw [after, hselect]
  · rw [after, hselect, Dict.get?_set, if_neg (Ne.symm h)]

variable {s : String} {signature : List (String × ℤ)}

/-- While the signature stays, the calls for `s` go round one cycle, whatever happens to the other
services in between. -/
theorem returned_of_cached {sel : WeightedRoundRobinSelector} (hw : Weighted ids sel)
    (hne : signature ≠ []) {cycle : Cycle} (hcached : sel.cycles.get? s = some ⟨signature, cycle⟩)
    (cs : List (Call ids)) (hs : ∀ c ∈ cs, c.service = s → c.signature = signature) :
    returned s sel cs = draws cycle (cs.countP (fun c => c.service = s)) := by
  induction cs generalizing sel cycle with
  | nil => rfl
  | cons c cs ih =>
    have hs' : ∀ c ∈ cs, c.service = s → c.signature = signature :=
      fun c hc => hs c (List.mem_cons_of_mem _ hc)
    by_cases hc : c.service = s
    · have hsig := hs c (List.mem_cons_self ..) hc
      obtain ⟨cycle', -, hselect, hsame⟩ := select_weighted hw c (hsig ▸ hne)
      have hcycle : cycle' = cycle := hsame ⟨signature, cycle⟩ (hc ▸ hcached) hsig.symm
      have hnext : (after sel c).cycles.get? s = some ⟨signature, cycle.advance⟩ := by
        rw [after, hselect, hcycle, hsig, hc, Dict.get?_set, if_pos rfl]
      rw [returned, if_pos hc, hselect, ih (after_weighted hw c) hnext hs', hcycle]
      simp [hc, draws]
    · have hnext := (after_get?_of_ne hc).trans hcached
      rw [returned, if_neg hc, ih (after_weighted hw c) hnext hs']
      simp [hc]

theorem returned_eq_draws {sel : WeightedRoundRobinSelector} (hw : Weighted ids sel)
    (hne : signature ≠ []) (cs : List (Call ids))
    (hs : ∀ c ∈ cs, c.service = s → c.signature = signature)
    (hcalls : 0 < cs.countP (fun c => c.service = s)) :
    ∃ cycle : Cycle, (cycle.items.map ids).Perm (slots signature) ∧
      returned s sel cs = draws cycle (cs.countP (fun c => c.service = s)) := by
  induction cs generalizing sel with
  | nil => cases hcalls
  | cons c cs ih =>
    have hs' : ∀ c ∈ cs, c.service = s → c.signature = signature :=
      fun c hc => hs c (List.mem_cons_of_mem _ hc)
    by_cases hc : c.service = s
    · have hsig := hs c (List.mem_cons_self ..) hc
      obtain ⟨cycle, hp, hselect, -⟩ := select_weighted hw c (hsig ▸ hne)
      have hnext : (after sel c).cycles.get? s = some ⟨signature, cycle.advance⟩ := by
        rw [after, hselect, hsig, hc, Dict.get?_set, if_pos rfl]
      refine ⟨cycle, hsig ▸ hp, ?_⟩
      rw [returned, if_pos hc, hselect,
        returned_of_cached (after_weighted hw c) hne hnext cs hs']
      simp [hc, draws]
    · obtain ⟨cycle, hp, hret⟩ := ih (after_weighted hw c) hs' (by simpa [hc] using hcalls)
      refine ⟨cycle, hp, ?_⟩
      rw [returned, if_neg hc, hret]
      simp [hc]

theorem weighted_foldl {sel : WeightedRoundRobinSelector} (hw : Weighted ids sel)
    (cs : List (Call ids)) : Weighted ids (cs.foldl after sel) := by
  induction cs generalizing sel with
  | nil => exact hw
  | cons c cs ih => exact ih (after_weighted hw c)

/-- Over any stretch with as many calls for `s` as its weights add up to, each instance is
returned exactly as often as its weight says. -/
theorem weighted_round_robin_fair (ids : Ref → String) (past stretch : List (Call ids))
    (s : String) (signature : List (String × ℤ))
    (hs : ∀ c ∈ stretch, c.service = s → c.signature = signature)
    (hd : (signature.map Prod.fst).Nodup)
    (hlen : stretch.countP (fun c => c.service = s) = (signature.map share).sum)
    (p : String × ℤ) (hp : p ∈ signature) :
    ((returned s (past.foldl after {}) stretch).map ids).count p.1 = share p := by
  have hpos : 0 < share p := by
    have := le_max_left 1 p.2
    unfold share
    omega
  have hle : share p ≤ (signature.map share).sum :=
    List.le_sum_of_mem (List.mem_map_of_mem hp)
  have hw : Weighted ids (past.foldl after {}) :=
    weighted_foldl (fun s e he => by simp at he) past
  obtain ⟨cycle, hperm, hret⟩ :=
    returned_eq_draws hw (List.ne_nil_of_mem hp) stretch hs (by omega)
  have hturn : stretch.countP (fun c => c.service = s) = cycle.items.length := by
    rw [hlen, ← length_slots, ← hperm.length_eq, List.length_map]
  calc ((returned s (past.foldl after {}) stretch).map ids).count p.1
      = ((cycle.items.rotate cycle.pos).map ids).count p.1 := by rw [hret, hturn, draws_length]
    _ = (cycle.items.map ids).count p.1 :=
        ((List.rotate_perm cycle.items cycle.pos).map ids).count_eq p.1
    _ = (slots signature).count p.1 := hperm.count_eq p.1
    _ = share p := count_slots hd hp

def pair : Fleet where
  get r :=
    if r = 0 then ⟨"a", "a.local", 80, 2, .healthy, 0⟩ else ⟨"b", "b.local", 80, 1, .healthy, 0⟩
  byService := .empty

def callTo (service : String) : Call (fun r => if r = 0 then "a" else "b") where
  service
  instances := [0, 1]
  fleet := pair
  shuffle := ⟨List.reverse, List.reverse_perm⟩
  id_eq r := by
    by_cases h : r = 0 <;> simp [pair, h]

theorem fair_to_pair :
    ((returned "users" ([callTo "users"].foldl after {})
      [callTo "users", callTo "orders", callTo "users", callTo "users"]).map
        (fun r => if r = 0 then "a" else "b")).count "a" = 2 :=
  weighted_round_robin_fair _ [callTo "users"] _ "users" [("a", 2), ("b", 1)]
    (by decide +kernel) (by decide +kernel) (by decide +kernel) ("a", 2) (by decide +kernel)

end Sentinel.RoundRobin
