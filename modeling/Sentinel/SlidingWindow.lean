import Sentinel.SortedSet
import Mathlib.Data.List.DropRight
import Mathlib.Data.String.Basic
import Mathlib.Tactic.SplitIfs

namespace Sentinel.SlidingWindow

def scientific (mantissa exponent : ℕ) : List Char :=
  let digits := Nat.toDigits 10 mantissa
  let fraction := digits.tail.rdropWhile (· = '0')
  digits.take 1 ++ (if fraction = [] then [] else '.' :: fraction) ++ ['e', '+'] ++
    (if exponent < 10 then '0' :: Nat.toDigits 10 exponent else Nat.toDigits 10 exponent)

/-- `%.14g` of an integer of more than fourteen digits: fourteen significant digits, rounded
half to even. -/
def rounded (n : ℕ) : List Char :=
  let exponent := (Nat.toDigits 10 n).length - 1
  let unit := 10 ^ (exponent - 13)
  let down := n / unit
  let rest := n % unit
  let up := if unit < 2 * rest ∨ (unit = 2 * rest ∧ down % 2 = 1) then down + 1 else down
  if up = 10 ^ 14 then scientific (10 ^ 13) (exponent + 1) else scientific up exponent

/-- The text of an integer-valued Lua number, as `..` and `tostring` write it. -/
def tostring (n : ℤ) : List Char :=
  let digits := Nat.toDigits 10 n.natAbs
  (if n < 0 then ['-'] else []) ++ if digits.length ≤ 14 then digits else rounded n.natAbs

structure Args where
  limit : ℤ
  windowMs : ℤ
  nowMs : ℤ
  memberId : String
  ttlSeconds : ℤ
  deriving DecidableEq

/-- The sorted set under the window key and the idle expiry last set on it. -/
structure Window where
  log : SortedSet String ℤ := SortedSet.empty
  ttlSeconds : ℤ := 0

structure Reply where
  allowed : Bool
  currentCount : ℤ
  retryAfterMs : ℤ
  deriving DecidableEq

/-- The sorted-set member of an admitted request: `member_id .. ":" .. now_ms`. -/
def member (a : Args) : String := a.memberId ++ ":" ++ String.ofList (tostring a.nowMs)

def evicted (a : Args) (w : Window) : SortedSet String ℤ :=
  let windowStart := a.nowMs - a.windowMs
  w.log.removeUpTo windowStart

def evaluate (a : Args) (w : Window) : Window × Reply :=
  let log := evicted a w
  let currentCount : ℤ := log.card
  if currentCount < a.limit then
    (⟨log.add (member a) a.nowMs, a.ttlSeconds⟩, ⟨true, currentCount + 1, 0⟩)
  else
    let retryAfterMs := match log.first with
      | some (_, oldestScore) =>
        let retryAfterMs := oldestScore + a.windowMs - a.nowMs
        if retryAfterMs < 0 then 0 else retryAfterMs
      | none => 0
    (⟨log, a.ttlSeconds⟩, ⟨false, currentCount, retryAfterMs⟩)

/-- The key before evaluation `k` of a run that starts without the key and never loses it. -/
def windowAt (calls : ℕ → Args) : ℕ → Window
  | 0 => {}
  | k + 1 => (evaluate (calls k) (windowAt calls k)).1

def replyAt (calls : ℕ → Args) (k : ℕ) : Reply := (evaluate (calls k) (windowAt calls k)).2

def admitted (calls : ℕ → Args) (k : ℕ) : Bool := (replyAt calls k).allowed

section

variable (a : Args) (w : Window)

theorem evaluate_allowed_iff :
    (evaluate a w).2.allowed = true ↔ ((evicted a w).card : ℤ) < a.limit := by
  by_cases h : ((evicted a w).card : ℤ) < a.limit <;> simp [evaluate, h]

theorem evaluate_currentCount :
    (evaluate a w).2.currentCount =
      (evicted a w).card + if (evaluate a w).2.allowed then 1 else 0 := by
  by_cases h : ((evicted a w).card : ℤ) < a.limit <;> simp [evaluate, h]

theorem evaluate_log :
    (evaluate a w).1.log = if (evaluate a w).2.allowed then
      (evicted a w).add (member a) a.nowMs else evicted a w := by
  by_cases h : ((evicted a w).card : ℤ) < a.limit <;> simp [evaluate, h]

theorem evaluate_ttlSeconds : (evaluate a w).1.ttlSeconds = a.ttlSeconds := by
  by_cases h : ((evicted a w).card : ℤ) < a.limit <;> simp [evaluate, h]

end

theorem colon_not_digit {n : ℕ} : ':' ∉ Nat.toDigits 10 n := by
  intro h
  have hd := Nat.isDigit_of_mem_toDigits (by decide) (by decide) h
  revert hd
  decide

theorem colon_not_scientific (mantissa exponent : ℕ) : ':' ∉ scientific mantissa exponent := by
  have hhead : ':' ∉ (Nat.toDigits 10 mantissa).take 1 :=
    fun hm => colon_not_digit (List.mem_of_mem_take hm)
  have hfraction : ':' ∉ (Nat.toDigits 10 mantissa).tail.rdropWhile (· = '0') :=
    fun hm => colon_not_digit (List.mem_of_mem_tail ((List.rdropWhile_prefix _ _).subset hm))
  simp only [scientific, List.mem_append, not_or]
  refine ⟨⟨⟨hhead, ?_⟩, by decide⟩, ?_⟩
  · split_ifs
    · simp
    · exact List.not_mem_cons_of_ne_of_not_mem (by decide) hfraction
  · split_ifs
    · exact List.not_mem_cons_of_ne_of_not_mem (by decide) colon_not_digit
    · exact colon_not_digit

theorem colon_not_tostring (n : ℤ) : ':' ∉ tostring n := by
  have hrounded : ':' ∉ rounded n.natAbs := by
    simp only [rounded]
    split_ifs <;> exact colon_not_scientific _ _
  unfold tostring
  rw [List.mem_append, not_or]
  constructor
  · split_ifs <;> simp
  · split_ifs
    · exact colon_not_digit
    · exact hrounded

theorem memberId_eq_of_member_eq {a b : Args} (h : member a = member b) :
    a.memberId = b.memberId := by
  have hdrop : ∀ (c : Args), (member c).toList.reverse.dropWhile (· ≠ ':') =
      ':' :: c.memberId.toList.reverse := by
    intro c
    have ht : ∀ x ∈ (tostring c.nowMs).reverse, decide (x ≠ ':') = true := by
      intro x hx
      have hne : x ≠ ':' := fun he => colon_not_tostring c.nowMs (he ▸ List.mem_reverse.mp hx)
      simpa using hne
    have hm : (member c).toList.reverse =
        (tostring c.nowMs).reverse ++ ':' :: c.memberId.toList.reverse := by
      simp [member]
    rw [hm, List.dropWhile_append_of_pos ht]
    simp
  have hr := hdrop a
  rw [h, hdrop b, List.cons.injEq] at hr
  exact (String.toList_injective (List.reverse_injective hr.2)).symm

end Sentinel.SlidingWindow
