import Mathlib.Algebra.BigOperators.Group.List.Basic
import Mathlib.Algebra.Order.Ring.Int
import Mathlib.Data.List.Chain

namespace Sentinel.Debounce

/-- A shown value that follows a stream of readings only when one of them has been repeated often
enough. -/
structure Display (α σ : Type*) where
  tally : α → ℕ
  shown : σ

variable {α σ : Type*} [DecidableEq α] [DecidableEq σ] (threshold : α → ℤ)
  (outcome : α → σ)

def Switches (d : Display α σ) (a : α) : Prop :=
  threshold a ≤ d.tally a + 1 ∧ d.shown ≠ outcome a

instance (d : Display α σ) (a : α) : Decidable (Switches threshold outcome d a) :=
  inferInstanceAs (Decidable (_ ∧ _))

def observe (d : Display α σ) (a : α) : Display α σ :=
  ⟨fun b => if b = a then d.tally b + 1 else 0,
    if threshold a ≤ d.tally a + 1 then outcome a else d.shown⟩

def switches : Display α σ → List α → List α
  | _, [] => []
  | d, a :: as => (if Switches threshold outcome d a then [a] else []) ++
      switches (observe threshold outcome d a) as

def reads (d : Display α σ) (as : List α) : Display α σ :=
  as.foldl (observe threshold outcome) d

omit [DecidableEq σ] in
theorem reads_concat (d : Display α σ) (as : List α) (a : α) :
    reads threshold outcome d (as ++ [a]) =
      observe threshold outcome (reads threshold outcome d as) a := by
  simp [reads]

theorem switches_concat (d : Display α σ) (as : List α) (a : α) :
    switches threshold outcome d (as ++ [a]) = switches threshold outcome d as ++
      if Switches threshold outcome (reads threshold outcome d as) a then [a] else [] := by
  induction as generalizing d with
  | nil =>
    rw [List.nil_append, switches, switches, switches, List.append_nil, List.nil_append]
    rfl
  | cons b as ih =>
    rw [List.cons_append, switches, switches, ih, List.append_assoc]
    rfl

theorem shown_eq (d : Display α σ) (as : List α) : (reads threshold outcome d as).shown =
    ((switches threshold outcome d as).getLast?.map outcome).getD d.shown := by
  induction as using List.reverseRecOn with
  | nil => rfl
  | append_singleton as a ih =>
    rw [reads_concat, switches_concat]
    by_cases hs : Switches threshold outcome (reads threshold outcome d as) a
    · simp [hs, observe, hs.1]
    · rw [if_neg hs, List.append_nil, ← ih]
      unfold observe
      dsimp only
      split_ifs with hle
      · -- the threshold is reached, but the display shows the value already
        by_contra hne
        exact hs ⟨hle, Ne.symm hne⟩
      · rfl

theorem isChain_switches (d : Display α σ) (as : List α) :
    (switches threshold outcome d as).IsChain (fun a b => outcome a ≠ outcome b) := by
  induction as using List.reverseRecOn with
  | nil => exact .nil
  | append_singleton as a ih =>
    rw [switches_concat]
    split_ifs with hs
    · refine List.isChain_append.mpr ⟨ih, .singleton a, fun b hb c hc => ?_⟩
      obtain rfl : a = c := by simpa using hc
      have hshown : (reads threshold outcome d as).shown = outcome b := by
        rw [shown_eq, Option.mem_def.mp hb]
        rfl
      exact hshown ▸ hs.2
    · rwa [List.append_nil]

/-- Every switch has cost as many readings as its threshold asks for, and the readings towards the
next one are still in hand. -/
theorem sum_switches_add_le (d : Display α σ) (hd : ∀ a, d.tally a = 0) (as : List α) :
    ((switches threshold outcome d as).map threshold).sum ≤ as.length ∧
    ∀ b, (reads threshold outcome d as).shown ≠ outcome b →
      ((switches threshold outcome d as).map threshold).sum +
        (reads threshold outcome d as).tally b ≤ as.length := by
  induction as using List.reverseRecOn with
  | nil => simp [switches, reads, hd]
  | append_singleton as a ih =>
    obtain ⟨hsum, hcredit⟩ := ih
    rw [reads_concat, switches_concat, List.length_append, List.length_singleton]
    push_cast
    by_cases hs : Switches threshold outcome (reads threshold outcome d as) a
    · have hpaid := hcredit a hs.2
      have hle := hs.1
      have hnew : ((switches threshold outcome d as ++ [a]).map threshold).sum ≤
          as.length + 1 := by
        simp
        omega
      rw [if_pos hs]
      refine ⟨hnew, fun b hb => ?_⟩
      have hne : b ≠ a := by
        rintro rfl
        simp [observe, hle] at hb
      simpa [observe, hne] using hnew
    · rw [if_neg hs, List.append_nil]
      refine ⟨by omega, fun b hb => ?_⟩
      by_cases hba : b = a
      · subst hba
        have hbefore : (reads threshold outcome d as).shown ≠ outcome b := by
          intro he
          apply hb
          simp only [observe, he, ite_self]
        have := hcredit b hbefore
        simp only [observe, if_pos]
        push_cast
        omega
      · simp only [observe, if_neg hba]
        push_cast
        omega

end Sentinel.Debounce
