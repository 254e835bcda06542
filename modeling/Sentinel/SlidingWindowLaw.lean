import Sentinel.SlidingWindow
import Mathlib.Data.Nat.Count
import Mathlib.Tactic.Linarith

namespace Sentinel.SlidingWindowLaw

open SlidingWindow

def calls (limit windowMs ttlSeconds : ℤ) (t : ℕ → ℤ) (ids : ℕ → String) (k : ℕ) : Args :=
  ⟨limit, windowMs, t k, ids k, ttlSeconds⟩

def admissions (calls : ℕ → Args) (windowMs x : ℤ) (n : ℕ) : ℕ :=
  Nat.count (fun j => admitted calls j = true ∧ x - windowMs < (calls j).nowMs ∧
    (calls j).nowMs ≤ x) n

/-- The entries that the admitted evaluations before `k` later than `lo` would leave. -/
def stamps (calls : ℕ → Args) (lo : ℤ) (k : ℕ) : List (String × ℤ) :=
  ((List.range k).filter (fun j => admitted calls j && decide (lo < (calls j).nowMs))).map
    (fun j => (member (calls j), (calls j).nowMs))

theorem stamps_succ (calls : ℕ → Args) (lo : ℤ) (k : ℕ) :
    stamps calls lo (k + 1) = stamps calls lo k ++
      if admitted calls k && decide (lo < (calls k).nowMs) then
        [(member (calls k), (calls k).nowMs)] else [] := by
  rw [stamps, List.range_succ, List.filter_append, List.map_append, stamps]
  congr 1
  rw [List.filter_singleton]
  cases admitted calls k && decide (lo < (calls k).nowMs) <;> rfl

theorem stamps_filter (calls : ℕ → Args) {lo hi : ℤ} {k : ℕ}
    (h : ∀ j < k, hi < (calls j).nowMs → lo < (calls j).nowMs) :
    (stamps calls lo k).filter (fun e => hi < e.2) = stamps calls hi k := by
  rw [stamps, List.filter_map, List.filter_filter, stamps]
  congr 1
  apply List.filter_congr
  intro j hj
  have hlo := h j (List.mem_range.mp hj)
  by_cases hh : hi < (calls j).nowMs
  · simp [hh, hlo hh]
  · simp [hh]

theorem stamps_length (calls : ℕ → Args) (lo : ℤ) (k : ℕ) :
    (stamps calls lo k).length =
      Nat.count (fun j => admitted calls j = true ∧ lo < (calls j).nowMs) k := by
  induction k with
  | zero => simp [stamps]
  | succ k ih =>
    rw [stamps_succ, List.length_append, ih, Nat.count_succ]
    simp only [Bool.and_eq_true, decide_eq_true_eq]
    split_ifs <;> rfl

section

variable (calls : ℕ → Args)

theorem evicted_perm {lo : ℤ} {k : ℕ}
    (hp : (windowAt calls k).log.entries.Perm (stamps calls lo k))
    (hlo : ∀ j < k, (calls k).nowMs - (calls k).windowMs < (calls j).nowMs →
      lo < (calls j).nowMs) :
    (evicted (calls k) (windowAt calls k)).entries.Perm
      (stamps calls ((calls k).nowMs - (calls k).windowMs) k) := by
  rw [← stamps_filter calls hlo]
  exact hp.filter _

theorem member_fresh {lo : ℤ} {k : ℕ} (hid : ∀ j < k, (calls j).memberId ≠ (calls k).memberId) :
    member (calls k) ∉ (stamps calls lo k).map Prod.fst := by
  intro hm
  obtain ⟨e, he, hek⟩ := List.mem_map.mp hm
  obtain ⟨j, hj, rfl⟩ := List.mem_map.mp he
  have hlt : j < k := List.mem_range.mp (List.mem_filter.mp hj).1
  exact hid j hlt (memberId_eq_of_member_eq hek)

theorem admitted_iff_card (k : ℕ) :
    admitted calls k = true ↔
      ((evicted (calls k) (windowAt calls k)).card : ℤ) < (calls k).limit :=
  evaluate_allowed_iff (calls k) (windowAt calls k)

theorem currentCount_eq (k : ℕ) :
    (replyAt calls k).currentCount = (evicted (calls k) (windowAt calls k)).card +
      if admitted calls k then 1 else 0 :=
  evaluate_currentCount (calls k) (windowAt calls k)

theorem windowAt_succ_entries (k : ℕ) :
    (windowAt calls (k + 1)).log.entries = if admitted calls k then
      ((evicted (calls k) (windowAt calls k)).add (member (calls k)) (calls k).nowMs).entries
      else (evicted (calls k) (windowAt calls k)).entries := by
  rw [windowAt, evaluate_log, apply_ite SortedSet.entries]
  rfl

/-- After evaluation `k` the sorted set holds exactly the admitted evaluations still inside
its window. -/
theorem windowAt_succ_perm {k : ℕ} (hw : 0 < (calls k).windowMs)
    (hid : ∀ j < k, (calls j).memberId ≠ (calls k).memberId)
    (he : (evicted (calls k) (windowAt calls k)).entries.Perm
      (stamps calls ((calls k).nowMs - (calls k).windowMs) k)) :
    (windowAt calls (k + 1)).log.entries.Perm
      (stamps calls ((calls k).nowMs - (calls k).windowMs) (k + 1)) := by
  have hin : (calls k).nowMs - (calls k).windowMs < (calls k).nowMs := by omega
  rw [windowAt_succ_entries, stamps_succ]
  by_cases ha : admitted calls k = true
  · have hf : member (calls k) ∉
        (evicted (calls k) (windowAt calls k)).entries.map Prod.fst :=
      fun hm => member_fresh calls hid ((he.map Prod.fst).mem_iff.mp hm)
    simp only [ha, hin, decide_true, Bool.and_self, ↓reduceIte]
    have hadd := SortedSet.add_perm hf (calls k).nowMs
    exact hadd.trans ((he.cons _).trans (List.perm_append_singleton _ _).symm)
  · simpa [ha] using he

end

section

variable {limit windowMs ttlSeconds : ℤ} {t : ℕ → ℤ} {ids : ℕ → String} {n : ℕ}

theorem evicted_law (hw : 0 < windowMs) (ht : ∀ i j, i ≤ j → j < n → t i ≤ t j)
    (hid : ∀ i j, i < j → j < n → ids i ≠ ids j) {k : ℕ} (hk : k < n) :
    (evicted (calls limit windowMs ttlSeconds t ids k)
      (windowAt (calls limit windowMs ttlSeconds t ids) k)).entries.Perm
      (stamps (calls limit windowMs ttlSeconds t ids) (t k - windowMs) k) := by
  induction k with
  | zero => exact List.Perm.refl _
  | succ k ih =>
    have hp := windowAt_succ_perm (calls limit windowMs ttlSeconds t ids) hw
      (fun j hj => hid j k hj (by omega)) (ih (by omega))
    refine evicted_perm _ hp (fun j _ hj => ?_)
    have hle := ht k (k + 1) (by omega) hk
    simp only [calls] at hj ⊢
    omega

theorem evicted_card (hw : 0 < windowMs) (ht : ∀ i j, i ≤ j → j < n → t i ≤ t j)
    (hid : ∀ i j, i < j → j < n → ids i ≠ ids j) {k : ℕ} (hk : k < n) :
    (evicted (calls limit windowMs ttlSeconds t ids k)
      (windowAt (calls limit windowMs ttlSeconds t ids) k)).card =
      admissions (calls limit windowMs ttlSeconds t ids) windowMs (t k) k := by
  rw [SortedSet.card, (evicted_law hw ht hid hk).length_eq, stamps_length]
  apply le_antisymm
  · apply Nat.count_mono_left
    rintro j hj ⟨ha, hlo⟩
    exact ⟨ha, hlo, ht j k hj.le hk⟩
  · apply Nat.count_mono_left
    rintro j - ⟨ha, hlo, -⟩
    exact ⟨ha, hlo⟩

end

section

variable {limit windowMs ttlSeconds : ℤ} {t : ℕ → ℤ} {ids : ℕ → String} {n : ℕ} (hw : 0 < windowMs)
  (ht : ∀ i j, i ≤ j → j < n → t i ≤ t j) (hid : ∀ i j, i < j → j < n → ids i ≠ ids j)

include hw ht hid

theorem admitted_iff_admissions {k : ℕ} (hk : k < n) :
    admitted (calls limit windowMs ttlSeconds t ids) k = true ↔
      (admissions (calls limit windowMs ttlSeconds t ids) windowMs (t k) k : ℤ) < limit := by
  rw [admitted_iff_card, evicted_card hw ht hid hk]
  rfl

theorem admissions_le_limit (hl : 0 ≤ limit) (x : ℤ) {m : ℕ} (hm : m ≤ n) :
    (admissions (calls limit windowMs ttlSeconds t ids) windowMs x m : ℤ) ≤ limit := by
  induction m with
  | zero => simpa [admissions] using hl
  | succ m ih =>
    rw [admissions, Nat.count_succ, ← admissions]
    split_ifs with hin
    · obtain ⟨ha, hlo, hhi⟩ := hin
      have hlt := (admitted_iff_admissions hw ht hid (by omega)).mp ha
      have hle : admissions (calls limit windowMs ttlSeconds t ids) windowMs x m ≤
          admissions (calls limit windowMs ttlSeconds t ids) windowMs (t m) m := by
        refine Nat.count_mono_left fun j hj ⟨haj, hloj, _⟩ => ⟨haj, ?_, ht j m hj.le (by omega)⟩
        simp only [calls] at hhi hloj ⊢
        omega
      push_cast
      omega
    · simpa using ih (by omega)

end

/-- Exact sliding-window semantics: an evaluation is admitted when fewer than `limit` earlier
ones were admitted in its window, and so no window of that length ever holds more. -/
theorem window_law (limit windowMs ttlSeconds : ℤ) (hl : 0 ≤ limit) (hw : 0 < windowMs)
    (t : ℕ → ℤ) (ids : ℕ → String) (n : ℕ) (ht : ∀ i j, i ≤ j → j < n → t i ≤ t j)
    (hid : ∀ i j, i < j → j < n → ids i ≠ ids j) :
    (∀ k < n, admitted (calls limit windowMs ttlSeconds t ids) k = true ↔
      (admissions (calls limit windowMs ttlSeconds t ids) windowMs (t k) k : ℤ) < limit) ∧
    (∀ k < n, (replyAt (calls limit windowMs ttlSeconds t ids) k).currentCount =
      admissions (calls limit windowMs ttlSeconds t ids) windowMs (t k) (k + 1)) ∧
    (∀ x, (admissions (calls limit windowMs ttlSeconds t ids) windowMs x n : ℤ) ≤ limit) := by
  refine ⟨fun k hk => admitted_iff_admissions hw ht hid hk, fun k hk => ?_,
    fun x => admissions_le_limit hw ht hid hl x le_rfl⟩
  have hin : t k - windowMs < t k := by omega
  rw [currentCount_eq, evicted_card hw ht hid hk, admissions, admissions, Nat.count_succ]
  simp [calls, hin]

theorem window_law_one_per_second :
    admitted (calls 1 1000 3600 (fun k => 600 * k) (fun k => String.ofList (.replicate k 'a'))) 1 =
      false ∧
    (admissions (calls 1 1000 3600 (fun k => 600 * k)
      (fun k => String.ofList (.replicate k 'a'))) 1000 1200 2 : ℤ) < 1 := by
  have h := window_law 1 1000 3600 (by decide) (by decide) (fun k => 600 * k)
    (fun k => String.ofList (.replicate k 'a')) 3 (fun i j hij _ => by simpa using hij)
    (fun i j hij _ he => by simpa [hij.ne] using congrArg (fun s : String => s.toList.length) he)
  exact ⟨by decide +kernel, (h.1 2 (by decide)).mp (by decide +kernel)⟩

end Sentinel.SlidingWindowLaw
