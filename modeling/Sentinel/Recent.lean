import Mathlib.Data.List.DropRight
import Mathlib.Tactic.SplitIfs

namespace Sentinel.Recent

variable {α : Type*}

/-- Appending to a queue that keeps at most its last `n` items. -/
def push (n : ℕ) (l : List α) (x : α) : List α := (l ++ [x]).rtake n

theorem length_rtake (l : List α) (n : ℕ) : (l.rtake n).length = min n l.length := by
  simp only [List.rtake, List.length_drop]
  omega

theorem rtake_of_length_le {l : List α} {n : ℕ} (h : l.length ≤ n) : l.rtake n = l := by
  simp [List.rtake, Nat.sub_eq_zero_of_le h]

theorem rtake_min_length (l : List α) (n : ℕ) : l.rtake (min l.length n) = l.rtake n := by
  obtain h | h := le_total l.length n
  · rw [min_eq_left h, rtake_of_length_le h, rtake_of_length_le le_rfl]
  · rw [min_eq_right h]

theorem length_push (n : ℕ) (l : List α) (x : α) :
    (push n l x).length = min n (l.length + 1) := by
  simp [push, length_rtake]

theorem push_rtake (n : ℕ) (l : List α) (x : α) : push n (l.rtake n) x = (l ++ [x]).rtake n := by
  cases n with
  | zero => simp [push]
  | succ n =>
    rw [push, List.rtake_concat_succ, List.rtake_concat_succ]
    congr 1
    simp only [List.rtake, List.length_drop, List.drop_drop]
    congr 1
    omega

theorem foldl_push (n : ℕ) (l xs : List α) :
    xs.foldl (push n) (l.rtake n) = (l ++ xs).rtake n := by
  induction xs generalizing l with
  | nil => simp
  | cons x xs ih => rw [List.foldl_cons, push_rtake, ih, List.append_assoc, List.singleton_append]

theorem push_of_length_lt {n : ℕ} {l : List α} (h : l.length < n) (x : α) :
    push n l x = l ++ [x] :=
  rtake_of_length_le (by simpa using Nat.succ_le_of_lt h)

theorem countP_push_le (p : α → Bool) (n : ℕ) (l : List α) (x : α) :
    (push n l x).countP p ≤ l.countP p + if p x then 1 else 0 := by
  have hsub : (push n l x).countP p ≤ (l ++ [x]).countP p :=
    (List.drop_sublist _ _).countP_le
  simpa [List.countP_append, List.countP_singleton] using hsub

end Sentinel.Recent
