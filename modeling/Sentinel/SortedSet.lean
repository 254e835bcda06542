import Mathlib.Data.List.Sort
import Mathlib.Data.Prod.Lex
import Mathlib.Order.Basic

namespace Sentinel

/-- Members with a score, each member once, in ascending order of score and then of member. -/
structure SortedSet (μ σ : Type*) [LinearOrder μ] [LinearOrder σ] where
  entries : List (μ × σ)
  sorted : entries.Pairwise (fun a b => toLex (a.2, a.1) ≤ toLex (b.2, b.1))
  nodup : (entries.map Prod.fst).Nodup

namespace SortedSet

variable {μ σ : Type*} [LinearOrder μ] [LinearOrder σ]

def empty : SortedSet μ σ := ⟨[], List.Pairwise.nil, List.nodup_nil⟩

/-- `ZREMRANGEBYSCORE key -inf hi`. -/
def removeUpTo (s : SortedSet μ σ) (hi : σ) : SortedSet μ σ where
  entries := s.entries.filter (fun e => hi < e.2)
  sorted := s.sorted.filter _
  nodup := s.nodup.sublist (List.filter_sublist.map Prod.fst)

def card (s : SortedSet μ σ) : ℕ := s.entries.length

def first (s : SortedSet μ σ) : Option (μ × σ) := s.entries.head?

/-- The entries after `m` is given score `x`: a member already there is moved. -/
def inserted (l : List (μ × σ)) (m : μ) (x : σ) : List (μ × σ) :=
  (l.filter (fun e => e.1 ≠ m)).orderedInsert
    (fun a b => toLex (a.2, a.1) ≤ toLex (b.2, b.1)) (m, x)

theorem inserted_perm (l : List (μ × σ)) (m : μ) (x : σ) :
    (inserted l m x).Perm ((m, x) :: l.filter (fun e => e.1 ≠ m)) :=
  List.perm_orderedInsert _ _ _

/-- `ZADD key x m`. -/
def add (s : SortedSet μ σ) (m : μ) (x : σ) : SortedSet μ σ where
  entries := inserted s.entries m x
  sorted := by
    have : Std.Total (fun a b : μ × σ => toLex (a.2, a.1) ≤ toLex (b.2, b.1)) :=
      ⟨fun a b => le_total (toLex (a.2, a.1)) (toLex (b.2, b.1))⟩
    have : IsTrans (μ × σ) (fun a b => toLex (a.2, a.1) ≤ toLex (b.2, b.1)) :=
      ⟨fun _ _ _ hab hbc => hab.trans hbc⟩
    exact (s.sorted.filter _).orderedInsert (m, x) _
  nodup := by
    rw [((inserted_perm s.entries m x).map Prod.fst).nodup_iff, List.map_cons, List.nodup_cons]
    refine ⟨?_, s.nodup.sublist (List.filter_sublist.map Prod.fst)⟩
    simp

theorem eq_of_entries_eq {s t : SortedSet μ σ} (h : s.entries = t.entries) : s = t := by
  obtain ⟨entries, sorted, nodup⟩ := s
  cases h
  rfl

theorem card_removeUpTo_le (s : SortedSet μ σ) (hi : σ) : (s.removeUpTo hi).card ≤ s.card :=
  List.length_filter_le _ _

theorem removeUpTo_removeUpTo (s : SortedSet μ σ) {lo hi : σ} (h : lo ≤ hi) :
    (s.removeUpTo lo).removeUpTo hi = s.removeUpTo hi := by
  apply eq_of_entries_eq
  simp only [removeUpTo, List.filter_filter]
  apply List.filter_congr
  intro e _
  by_cases he : hi < e.2
  · simp [he, h.trans_lt he]
  · simp [he]

theorem first_le {s : SortedSet μ σ} {e x : μ × σ} (h : s.first = some e) (hx : x ∈ s.entries) :
    e.2 ≤ x.2 := by
  obtain ⟨rest, hrest⟩ := List.head?_eq_some_iff.mp h
  have hsorted := s.sorted
  rw [hrest, List.pairwise_cons] at hsorted
  rw [hrest, List.mem_cons] at hx
  obtain rfl | hx := hx
  · exact le_rfl
  · obtain hlt | ⟨heq, -⟩ := Prod.Lex.toLex_le_toLex.mp (hsorted.1 x hx)
    · exact hlt.le
    · exact heq.le

theorem card_removeUpTo_lt_iff {s : SortedSet μ σ} {e : μ × σ} (h : s.first = some e) (hi : σ) :
    (s.removeUpTo hi).card < s.card ↔ e.2 ≤ hi := by
  rw [card, card, removeUpTo, List.length_filter_lt_length_iff_exists]
  constructor
  · rintro ⟨x, hx, hle⟩
    exact (first_le h hx).trans (by simpa using hle)
  · intro hle
    exact ⟨e, List.mem_of_head? h, by simpa using hle⟩

theorem card_add_le (s : SortedSet μ σ) (m : μ) (x : σ) : (s.add m x).card ≤ s.card + 1 := by
  have hlen : (s.add m x).card = (s.entries.filter (fun e => e.1 ≠ m)).length + 1 :=
    (inserted_perm s.entries m x).length_eq
  rw [hlen]
  exact Nat.succ_le_succ (List.length_filter_le _ _)

theorem add_perm {s : SortedSet μ σ} {m : μ} (h : m ∉ s.entries.map Prod.fst) (x : σ) :
    (s.add m x).entries.Perm ((m, x) :: s.entries) := by
  have hf : s.entries.filter (fun e => e.1 ≠ m) = s.entries := by
    rw [List.filter_eq_self]
    intro e he
    have hne : e.1 ≠ m := fun hm => h (hm ▸ List.mem_map_of_mem he)
    simpa using hne
  have hp := inserted_perm s.entries m x
  rwa [hf] at hp

end SortedSet

end Sentinel
