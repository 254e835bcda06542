import Mathlib.Data.List.Infix
import Mathlib.Data.Nat.Find

namespace Sentinel.Streaks

variable {α : Type*} {a b : α} {m n : ℕ}

/-- The history has `m` values `a` in a row, and `n` values `b` in a row do not follow the last
such run. -/
def Fit (a b : α) (m n : ℕ) (h : List α) : Prop :=
  ∃ x y, h = x ++ List.replicate m a ++ y ∧
    (∀ x' y', h = x' ++ List.replicate m a ++ y' → y <:+ y') ∧ ¬List.replicate n b <:+: y

theorem fit_iff {h : List α} :
    Fit a b m n h ↔ ∃ x y, h = x ++ List.replicate m a ++ y ∧ ¬List.replicate n b <:+: y := by
  constructor
  · rintro ⟨x, y, hxy, -, hy⟩
    exact ⟨x, y, hxy, hy⟩
  · rintro ⟨x, y, hxy, hy⟩
    classical
    -- the shortest remainder after a run is a suffix of every other
    have hex : ∃ k x y, h = x ++ List.replicate m a ++ y ∧ y.length = k := ⟨_, x, y, hxy, rfl⟩
    obtain ⟨x₀, y₀, hxy₀, hlen⟩ := Nat.find_spec hex
    have hlast : ∀ x' y', h = x' ++ List.replicate m a ++ y' → y₀ <:+ y' := by
      intro x' y' hxy'
      have hy₀ : y₀ <:+ h := ⟨x₀ ++ List.replicate m a, hxy₀.symm⟩
      apply List.suffix_of_suffix_length_le hy₀ ⟨x' ++ List.replicate m a, hxy'.symm⟩
      rw [hlen]
      exact Nat.find_min' hex ⟨x', y', hxy', rfl⟩
    refine ⟨x₀, y₀, hxy₀, hlast, fun hinner => hy ?_⟩
    exact hinner.trans (hlast x y hxy).isInfix

theorem not_fit_nil (hm : 1 ≤ m) : ¬Fit a b m n [] := by
  rw [fit_iff]
  rintro ⟨x, y, hxy, -⟩
  have hlen := congrArg List.length hxy
  simp at hlen
  omega

/-- A run at the end that is longer than what follows an `a` would reach back over that `a`. -/
theorem replicate_suffix_of_suffix_append (hab : a ≠ b) {x y : List α}
    (h : List.replicate n b <:+ x ++ [a] ++ y) : List.replicate n b <:+ y := by
  have hy : y <:+ x ++ [a] ++ y := List.suffix_append (x ++ [a]) y
  have hay : [a] ++ y <:+ x ++ [a] ++ y := ⟨x, by simp⟩
  by_cases hlen : n ≤ y.length
  · exact List.suffix_of_suffix_length_le h hy (by simpa using hlen)
  · have hmem : [a] ++ y <:+ List.replicate n b :=
      List.suffix_of_suffix_length_le hay h (by simp; omega)
    have ha : a ∈ List.replicate n b := hmem.subset (by simp)
    exact absurd (List.eq_of_mem_replicate ha) hab

variable [DecidableEq α]

def streak (a : α) (h : List α) : ℕ := (h.reverse.takeWhile (· = a)).length

@[simp] theorem streak_nil (a : α) : streak a [] = 0 := rfl

theorem streak_append_self (a : α) (h : List α) :
    streak a (h ++ [a]) = streak a h + 1 := by
  simp [streak]

theorem streak_append_ne {a b : α} (hne : b ≠ a) (h : List α) :
    streak a (h ++ [b]) = 0 := by
  simp [streak, hne]

theorem replicate_suffix_iff {a : α} {n : ℕ} {h : List α} :
    List.replicate n a <:+ h ↔ n ≤ streak a h := by
  induction h using List.reverseRecOn generalizing n with
  | nil => simp
  | append_singleton h b ih =>
    cases n with
    | zero => simp
    | succ n =>
      rw [List.replicate_succ', List.suffix_concat_iff]
      by_cases hb : b = a
      · subst hb
        simp [streak_append_self, ih]
      · simp [streak_append_ne hb, Ne.symm hb]

theorem fit_append_first (hab : a ≠ b) (hn : 1 ≤ n) (h : List α) :
    Fit a b m n (h ++ [a]) ↔ m ≤ streak a (h ++ [a]) ∨ Fit a b m n h := by
  simp only [fit_iff]
  constructor
  · rintro ⟨x, y, hxy, hy⟩
    induction y using List.reverseRecOn with
    | nil =>
      left
      rw [← replicate_suffix_iff]
      exact ⟨x, by simpa using hxy.symm⟩
    | append_singleton y c =>
      right
      rw [← List.append_assoc] at hxy
      obtain ⟨rfl, -⟩ := List.append_inj' hxy rfl
      exact ⟨x, y, rfl, fun hinner => hy (hinner.trans (List.prefix_append y [c]).isInfix)⟩
  · rintro (hs | ⟨x, y, rfl, hy⟩)
    · obtain ⟨x, hx⟩ := replicate_suffix_iff.mpr hs
      refine ⟨x, [], by simpa using hx.symm, ?_⟩
      simp
      omega
    · refine ⟨x, y ++ [a], by simp, ?_⟩
      rw [List.infix_concat_iff, replicate_suffix_iff, streak_append_ne hab]
      exact not_or.mpr ⟨by omega, hy⟩

theorem fit_append_second (hab : a ≠ b) (hm : 1 ≤ m) (h : List α) :
    Fit a b m n (h ++ [b]) ↔ Fit a b m n h ∧ streak b (h ++ [b]) < n := by
  obtain ⟨k, rfl⟩ := Nat.exists_eq_add_of_le' hm
  simp only [fit_iff]
  constructor
  · rintro ⟨x, y, hxy, hy⟩
    induction y using List.reverseRecOn with
    | nil =>
      have hsuffix : List.replicate (k + 1) a <:+ h ++ [b] := ⟨x, by simpa using hxy.symm⟩
      rw [replicate_suffix_iff, streak_append_ne hab.symm] at hsuffix
      exact absurd hsuffix (by omega)
    | append_singleton y c =>
      have hlast := hxy
      rw [← List.append_assoc] at hlast
      obtain ⟨hh, -⟩ := List.append_inj' hlast rfl
      refine ⟨⟨x, y, hh, fun hinner => hy (hinner.trans (List.prefix_append y [c]).isInfix)⟩, ?_⟩
      have hback : h ++ [b] = x ++ List.replicate k a ++ [a] ++ (y ++ [c]) := by
        rw [hxy, List.replicate_succ', ← List.append_assoc x]
      rw [← not_le, ← replicate_suffix_iff, hback]
      exact fun hsuffix => hy (replicate_suffix_of_suffix_append hab hsuffix).isInfix
  · rintro ⟨⟨x, y, rfl, hy⟩, hs⟩
    refine ⟨x, y ++ [b], by simp, ?_⟩
    rw [List.infix_concat_iff]
    rintro (hsuffix | hinner)
    · rw [← not_le, ← replicate_suffix_iff, List.append_assoc] at hs
      exact hs (List.suffix_append_of_suffix hsuffix)
    · exact hy hinner

end Sentinel.Streaks
