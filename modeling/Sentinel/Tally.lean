import Mathlib.Algebra.BigOperators.Group.List.Basic
import Mathlib.Data.List.Nodup
import Mathlib.Tactic.Linarith

namespace Sentinel.Tally

variable {α κ : Type*} [DecidableEq κ]

theorem countP_set_add {l : List α} {i : ℕ} {a : α} (h : l[i]? = some a) (b : α) (p : α → Bool) :
    (l.set i b).countP p + (p a).toNat = l.countP p + (p b).toNat := by
  induction l generalizing i with
  | nil => simp at h
  | cons x l ih =>
    cases i with
    | zero =>
      obtain rfl : x = a := by simpa using h
      cases hx : p x <;> cases hb : p b <;> simp [hx, hb]
    | succ i =>
      have ih := ih (show l[i]? = some a by simpa using h)
      simp only [List.set_cons_succ, List.countP_cons]
      linarith

theorem sum_map_set_add {l : List α} {i : ℕ} {a : α} (h : l[i]? = some a) (b : α) (f : α → ℕ) :
    ((l.set i b).map f).sum + f a = (l.map f).sum + f b := by
  induction l generalizing i with
  | nil => simp at h
  | cons x l ih =>
    cases i with
    | zero =>
      obtain rfl : x = a := by simpa using h
      simp only [List.set_cons_zero, List.map_cons, List.sum_cons]
      omega
    | succ i =>
      have ih := ih (show l[i]? = some a by simpa using h)
      simp only [List.set_cons_succ, List.map_cons, List.sum_cons]
      omega

theorem filterMap_set_perm {β : Type*} {l : List α} {i : ℕ} {a : α} (h : l[i]? = some a) (b : α)
    (f : α → Option β) :
    ((f a).toList ++ (l.set i b).filterMap f).Perm ((f b).toList ++ l.filterMap f) := by
  induction l generalizing i with
  | nil => simp at h
  | cons x l ih =>
    cases i with
    | zero =>
      obtain rfl : x = a := by simpa using h
      cases ha : f x <;> cases hb : f b <;> simp [ha, hb, List.Perm.swap]
    | succ i =>
      have ih := ih (show l[i]? = some a by simpa using h)
      cases hx : f x with
      | none => simpa [hx] using ih
      | some y =>
        simp only [List.set_cons_succ, List.filterMap_cons_some hx]
        exact List.perm_middle.trans ((ih.cons y).trans List.perm_middle.symm)

theorem filterMap_set_perm_of_none {β : Type*} {l : List α} {i : ℕ} {a b : α}
    {f : α → Option β} (hi : l[i]? = some a) (ha : f a = none) (hb : f b = none) :
    ((l.set i b).filterMap f).Perm (l.filterMap f) := by
  have hperm := filterMap_set_perm hi b f
  rw [ha, hb] at hperm
  exact hperm

/-- Two lists that show the same entries still do when an entry of one, not shown before, becomes a
new entry of the other. -/
theorem perm_filterMap_set_concat {β γ : Type*} {l : List α} {l' : List β} {f : α → Option γ}
    {g : β → Option γ} (h : (l.filterMap f).Perm (l'.filterMap g)) {i : ℕ} {a b : α} {b' : β}
    (hi : l[i]? = some a) (ha : f a = none) (hb : f b = g b') :
    ((l.set i b).filterMap f).Perm ((l' ++ [b']).filterMap g) := by
  have hl := filterMap_set_perm hi b f
  rw [ha, hb] at hl
  rw [List.filterMap_append]
  have hnew : [b'].filterMap g = (g b').toList := by cases hg : g b' <;> simp [hg]
  rw [hnew]
  exact hl.trans (List.perm_append_comm.trans (h.append_right _))

theorem perm_filterMap_set {β γ : Type*} {l : List α} {l' : List β} {f : α → Option γ}
    {g : β → Option γ} (h : (l.filterMap f).Perm (l'.filterMap g)) {i j : ℕ} {a b : α} {a' b' : β}
    (hi : l[i]? = some a) (hj : l'[j]? = some a') (ha : f a = g a') (hb : f b = g b') :
    ((l.set i b).filterMap f).Perm ((l'.set j b').filterMap g) := by
  have hl := filterMap_set_perm hi b f
  have hl' := filterMap_set_perm hj b' g
  rw [← ha, ← hb] at hl'
  exact (List.perm_append_left_iff _).mp
    (hl.trans (((List.perm_append_left_iff _).mpr h).trans hl'.symm))

theorem getElem?_concat_cases {l : List α} {a b : α} {k : ℕ} (h : (l ++ [a])[k]? = some b) :
    l[k]? = some b ∨ b = a := by
  by_cases hk : k < l.length
  · exact .inl (by rwa [List.getElem?_append_left hk] at h)
  · rw [List.getElem?_append_right (not_lt.mp hk)] at h
    exact .inr (List.mem_singleton.mp (List.mem_of_getElem? h))

theorem getElem?_set_cases {l : List α} {i k : ℕ} {b c : α} (h : (l.set i b)[k]? = some c) :
    l[k]? = some c ∨ k = i ∧ c = b := by
  by_cases hk : i = k
  · subst hk
    obtain ⟨hlt, -⟩ := List.getElem?_eq_some_iff.mp h
    rw [List.getElem?_set_self (by simpa using hlt)] at h
    exact .inr ⟨rfl, (Option.some.inj h).symm⟩
  · exact .inl (by rwa [List.getElem?_set_ne hk] at h)

theorem map_set_of_eq {β : Type*} {l : List α} {i : ℕ} {a b : α} {f : α → β} (h : l[i]? = some a)
    (hf : f b = f a) : (l.set i b).map f = l.map f := by
  induction l generalizing i with
  | nil => simp at h
  | cons x l ih =>
    cases i with
    | zero =>
      obtain rfl : x = a := by simpa using h
      simp [hf]
    | succ i => simp [ih (show l[i]? = some a by simpa using h)]

theorem filter_set {p : α → Bool} {l : List α} {i : ℕ} {a : α} (h : l[i]? = some a)
    (ha : p a = true) : ∃ j, (l.filter p)[j]? = some a ∧
      ∀ b, p b = true → (l.set i b).filter p = (l.filter p).set j b := by
  induction l generalizing i with
  | nil => simp at h
  | cons x l ih =>
    cases i with
    | zero =>
      obtain rfl : x = a := by simpa using h
      exact ⟨0, by simp [ha], fun b hb => by simp [ha, hb]⟩
    | succ i =>
      obtain ⟨j, hj, hset⟩ := ih (show l[i]? = some a by simpa using h)
      cases hx : p x with
      | false => exact ⟨j, by simpa [hx] using hj, fun b hb => by simpa [hx] using hset b hb⟩
      | true => exact ⟨j + 1, by simpa [hx] using hj, fun b hb => by simp [hx, hset b hb]⟩

theorem filter_set_of_neg {p : α → Bool} {l : List α} {i : ℕ} {a b : α} (h : l[i]? = some a)
    (ha : p a = false) (hb : p b = false) : (l.set i b).filter p = l.filter p := by
  induction l generalizing i with
  | nil => simp at h
  | cons x l ih =>
    cases i with
    | zero =>
      obtain rfl : x = a := by simpa using h
      simp [ha, hb]
    | succ i => simp [List.filter_cons, ih (show l[i]? = some a by simpa using h)]

theorem sum_ite_eq_count (ks : List κ) (k : κ) :
    (ks.map (fun k' => if k' = k then 1 else 0)).sum = ks.count k := by
  induction ks with
  | nil => rfl
  | cons k' ks ih => simp [List.count_cons, ih, Nat.add_comm]

/-- Counting by key, over distinct keys, counts no entry twice. -/
theorem sum_countP_le {ks : List κ} (h : ks.Nodup) (key : α → κ) (p : α → Bool) (l : List α) :
    (ks.map (fun k => l.countP (fun a => k = key a ∧ p a))).sum ≤ l.countP p := by
  induction l with
  | nil => simp
  | cons a l ih =>
    cases hp : p a with
    | false => simpa [hp] using ih
    | true =>
      have hk : (ks.map (fun k => if k = key a then 1 else 0)).sum ≤ 1 := by
        rw [sum_ite_eq_count]
        exact List.nodup_iff_count_le_one.mp h (key a)
      simp only [List.countP_cons, hp, and_true, decide_eq_true_eq, List.sum_map_add, if_true]
      exact Nat.add_le_add ih hk

theorem countP_le_countP_add {p q u : α → Bool} {l : List α}
    (h : ∀ a ∈ l, p a = true → q a = true ∨ u a = true) :
    l.countP p ≤ l.countP q + l.countP u := by
  induction l with
  | nil => simp
  | cons a l ih =>
    have ih := ih (fun x hx => h x (.tail a hx))
    have ha := h a (.head l)
    simp only [List.countP_cons]
    cases hp : p a <;> cases hq : q a <;> cases hu : u a <;> simp_all <;> omega

theorem countP_add_countP_le {p q u : α → Bool} {l : List α} (hp : ∀ a ∈ l, p a → u a)
    (hq : ∀ a ∈ l, q a → u a) (hpq : ∀ a ∈ l, p a → ¬q a) :
    l.countP p + l.countP q ≤ l.countP u := by
  induction l with
  | nil => simp
  | cons a l ih =>
    have ih := ih (fun x hx => hp x (.tail a hx)) (fun x hx => hq x (.tail a hx))
      (fun x hx => hpq x (.tail a hx))
    have hp := hp a (.head l)
    have hq := hq a (.head l)
    have hpq := hpq a (.head l)
    simp only [List.countP_cons]
    cases ha : p a <;> cases hb : q a <;> simp_all <;> omega

end Sentinel.Tally
