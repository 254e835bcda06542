import Sentinel.OwnChecks

namespace Sentinel.SharedCounters

open Router Selection Health HealthRounds OwnChecks

def steady (f : Ref → Bool) : Answers := ⟨fun r => .response (if f r then 200 else 500), by simp⟩

theorem verdict_steady (f : Ref → Bool) (r : Ref) : verdict ((steady f).of r) = some (f r) := by
  cases h : f r <;> simp [steady, verdict, h]

def checked (f : Ref → Bool) (st : State) (q : Ref) : State :=
  if (st.fleet.get q).status = .draining then st else judge st q (f q)

/-- A round in which no exception gets out comes to every instance. -/
def round (f : Ref → Bool) (st : State) : State := (pool st.fleet).foldl (checked f) st

theorem checkOnce_steady (f : Ref → Bool) (st : State) (refs : List Ref) :
    (checkOnce (steady f) st refs).1 = refs.foldl (checked f) st := by
  induction refs generalizing st with
  | nil => rfl
  | cons r rest ih =>
    obtain ⟨hd, he⟩ | ⟨healthy, ⟨hd, hv⟩, he⟩ | ⟨⟨hd, hv⟩, -⟩ := checkOnce_cons (steady f) st r rest
    · rw [he, ih, List.foldl_cons, checked, if_pos hd]
    · rw [verdict_steady] at hv
      cases hv
      rw [he, ih, List.foldl_cons, checked, if_neg hd]
    · rw [verdict_steady] at hv
      cases hv

theorem runForever_steady (st : State) (fs : List (Ref → Bool)) :
    (runForever st (fs.map steady)).1 = fs.foldl (fun st f => round f st) st := by
  induction fs generalizing st with
  | nil => rfl
  | cons f fs ih =>
    rw [List.map_cons, runForever, ih, checkOnce_steady]
    rfl

theorem resultsIn_eq (r : Ref) (answers : Answers) (gets : List Get) :
    resultsIn r answers gets =
      List.replicate ((gets.map Get.ref).count r) (answers.of r) := by
  induction gets with
  | nil => rfl
  | cons g gets ih =>
    unfold resultsIn at ih ⊢
    by_cases h : g.ref = r
    · simp [h, ih, List.replicate_succ]
    · simp [h, ih]

theorem results_steady (r : Ref) (st : State) (fs : List (Ref → Bool)) :
    results r st (fs.map steady) = fs.map (fun f => List.replicate
      (if live st.fleet r then (pool st.fleet).count r else 0)
      (Probe.response (if f r then 200 else 500))) := by
  induction fs generalizing st with
  | nil => rfl
  | cons f fs ih =>
    have hharmless : Harmless st.fleet (steady f) :=
      fun q _ => by simp [escapes, verdict_steady]
    have hcount := probesEach_iff.mpr hharmless r
    obtain ⟨hconfig, hlive⟩ := checkOnce_frame (steady f) st (pool st.fleet)
    have hrest := ih (checkOnce (steady f) st (pool st.fleet)).1
    rw [hlive, pool_eq_of_sameConfig hconfig] at hrest
    rw [List.map_cons, List.map_cons, ← hrest, ← hcount]
    simp only [results, runForever, List.zipWith_cons_cons, resultsIn_eq]
    rfl

section

variable {st₀ st : State} {r q : Ref}

/-- Results `b` alone, at least `k` of them by now for the id of `r`. -/
structure Streak (st₀ : State) (r : Ref) (b : Bool) (k : ℕ) (st : State) : Prop where
  framed : Framed st₀ st
  tally : k ≤ tally st (st₀.fleet.get r).id b
  reset : 1 ≤ k → OwnChecks.tally st (st₀.fleet.get r).id (!b) = 0
  status : 1 ≤ k → threshold st₀ b ≤ k → (st.fleet.get r).status = outcome b

variable {b : Bool} {k : ℕ}

theorem Streak.judge (h : Streak st₀ r b k st) (hd : (st.fleet.get q).status ≠ .draining) :
    Streak st₀ r b k (judge st q b) := by
  have hneg : (!b) ≠ b := by cases b <;> decide
  refine ⟨h.framed.judge b hd, ?_, fun hk => ?_, fun hk hle => ?_⟩
  · rw [tally_judge, if_pos rfl]
    have htally := h.tally
    split_ifs <;> omega
  · rw [tally_judge, if_neg hneg, h.reset hk, ite_self]
  · by_cases hq : r = q
    · subst hq
      have htally := h.tally
      rw [← h.framed.config.id_eq] at htally
      rw [status_judge_self, h.framed.threshold, if_pos (by omega)]
    · rw [judge_get_of_ne st b hq]
      exact h.status hk hle

theorem Streak.judge_self (h : Streak st₀ r b k st) (hd : (st.fleet.get r).status ≠ .draining) :
    Streak st₀ r b (k + 1) (Health.judge st r b) := by
  have hid : (st₀.fleet.get r).id = (st.fleet.get r).id := (h.framed.config.id_eq r).symm
  have hneg : (!b) ≠ b := by cases b <;> decide
  have htally := h.tally
  refine ⟨h.framed.judge b hd, ?_, fun _ => ?_, fun _ hle => ?_⟩
  · rw [tally_judge, if_pos hid, if_pos rfl]
    omega
  · rw [tally_judge, if_pos hid, if_neg hneg]
  · rw [hid] at htally
    rw [status_judge_self, h.framed.threshold, if_pos (by push_cast at hle; omega)]

theorem Streak.foldl (h : Streak st₀ r b k st) (refs : List Ref) :
    Streak st₀ r b k (refs.foldl (SharedCounters.checked (fun _ => b)) st) := by
  induction refs generalizing st with
  | nil => exact h
  | cons q refs ih =>
    apply ih
    unfold SharedCounters.checked
    split_ifs with hd
    · exact h
    · exact h.judge hd

theorem Streak.round (h : Streak st₀ r b k st) (hr : r ∈ pool st₀.fleet)
    (hd : (st₀.fleet.get r).status ≠ .draining) :
    Streak st₀ r b (k + 1) (round (fun _ => b) st) := by
  unfold SharedCounters.round
  rw [pool_eq_of_sameConfig h.framed.config]
  obtain ⟨before, after, heq⟩ := List.append_of_mem hr
  rw [heq, List.foldl_append, List.foldl_cons]
  apply Streak.foldl
  have hbefore := h.foldl before
  have hlive := mt (hbefore.framed.draining_iff r).mp hd
  rw [SharedCounters.checked, if_neg hlive]
  exact hbefore.judge_self hlive

theorem Streak.rounds (h : Streak st₀ r b k st) (hr : r ∈ pool st₀.fleet)
    (hd : (st₀.fleet.get r).status ≠ .draining) (n : ℕ) :
    Streak st₀ r b (k + n)
      ((List.replicate n (fun _ : Ref => b)).foldl (fun st f => SharedCounters.round f st) st) := by
  induction n generalizing st k with
  | zero => exact h
  | succ n ih =>
    rw [List.replicate_succ, List.foldl_cons, ← Nat.add_assoc, Nat.add_right_comm]
    exact ih (h.round hr hd)

def against (r : Ref) (b : Bool) (q : Ref) : Bool := if q = r then b else !b

/-- The results `b` of `r` are not enough: the others of its id keep resetting the counter. -/
structure Kept (st₀ : State) (r : Ref) (b : Bool) (k : ℕ) (st : State) : Prop where
  framed : Framed st₀ st
  tally : tally st (st₀.fleet.get r).id b ≤ k
  status : (st.fleet.get r).status = outcome (!b)

theorem Kept.other (h : Kept st₀ r b k st) (hq : q ≠ r) :
    Kept st₀ r b k (checked (against r b) st q) := by
  unfold SharedCounters.checked
  split_ifs with hd
  · exact h
  · have hneg : b ≠ against r b q := by cases b <;> simp [against, hq]
    refine ⟨h.framed.judge _ hd, ?_, ?_⟩
    · rw [tally_judge, if_neg hneg]
      split_ifs
      · exact Nat.zero_le _
      · exact h.tally
    · rw [judge_get_of_ne st _ (Ne.symm hq)]
      exact h.status

theorem Kept.reset (h : Kept st₀ r b k st) (hq : q ≠ r)
    (hid : (st₀.fleet.get q).id = (st₀.fleet.get r).id)
    (hd : (st₀.fleet.get q).status ≠ .draining) :
    Kept st₀ r b 0 (checked (against r b) st q) := by
  have hneg : b ≠ against r b q := by cases b <;> simp [against, hq]
  have hlive := mt (h.framed.draining_iff q).mp hd
  have hother := h.other hq
  rw [SharedCounters.checked, if_neg hlive] at hother ⊢
  refine ⟨hother.framed, ?_, hother.status⟩
  rw [tally_judge, h.framed.config.id_eq, if_pos hid.symm, if_neg hneg]

theorem Kept.self (h : Kept st₀ r b k st) (hlt : (k : ℤ) + 1 < threshold st₀ b)
    (hd : (st₀.fleet.get r).status ≠ .draining) :
    Kept st₀ r b (k + 1) (checked (against r b) st r) := by
  have hid : (st₀.fleet.get r).id = (st.fleet.get r).id := (h.framed.config.id_eq r).symm
  have hlive := mt (h.framed.draining_iff r).mp hd
  have hsame : against r b r = b := if_pos rfl
  have htally := h.tally
  rw [SharedCounters.checked, if_neg hlive, hsame]
  refine ⟨h.framed.judge b hlive, ?_, ?_⟩
  · rw [tally_judge, if_pos hid, if_pos rfl]
    omega
  · rw [hid] at htally
    rw [status_judge_self, h.framed.threshold, if_neg (by omega)]
    exact h.status

theorem Kept.foldl (h : Kept st₀ r b k st) {refs : List Ref} (hrefs : r ∉ refs) :
    Kept st₀ r b k (refs.foldl (checked (against r b)) st) := by
  induction refs generalizing st with
  | nil => exact h
  | cons q refs ih =>
    rw [List.mem_cons, not_or] at hrefs
    exact ih (h.other (Ne.symm hrefs.1)) hrefs.2

theorem Kept.foldl_reset (h : Kept st₀ r b k st) {refs : List Ref} (hrefs : r ∉ refs)
    (hq : q ∈ refs) (hid : (st₀.fleet.get q).id = (st₀.fleet.get r).id)
    (hd : (st₀.fleet.get q).status ≠ .draining) :
    Kept st₀ r b 0 (refs.foldl (checked (against r b)) st) := by
  obtain ⟨before, after, rfl⟩ := List.append_of_mem hq
  rw [List.mem_append, List.mem_cons, not_or, not_or] at hrefs
  rw [List.foldl_append, List.foldl_cons]
  exact ((h.foldl hrefs.1).reset (Ne.symm hrefs.2.1) hid hd).foldl hrefs.2.2

theorem Kept.rounds (h : Kept st₀ r b 0 st) (hpool : (pool st₀.fleet).Nodup)
    (hr : r ∈ pool st₀.fleet) (hd : (st₀.fleet.get r).status ≠ .draining)
    (hlt : 1 < threshold st₀ b) (hq : q ∈ pool st₀.fleet) (hqr : q ≠ r)
    (hid : (st₀.fleet.get q).id = (st₀.fleet.get r).id)
    (hdq : (st₀.fleet.get q).status ≠ .draining) (n : ℕ) :
    ∃ k, Kept st₀ r b k
      ((List.replicate n (against r b)).foldl (fun st f => SharedCounters.round f st) st) := by
  obtain ⟨before, after, heq⟩ := List.append_of_mem hr
  rw [heq, List.nodup_middle, List.nodup_cons, List.mem_append, not_or] at hpool
  obtain ⟨⟨hbefore, hafter⟩, -⟩ := hpool
  have hround : ∀ {k st}, Kept st₀ r b k st → SharedCounters.round (against r b) st =
      after.foldl (checked (against r b)) (checked (against r b)
        (before.foldl (checked (against r b)) st) r) := by
    intro k st h
    rw [SharedCounters.round, pool_eq_of_sameConfig h.framed.config, heq, List.foldl_append,
      List.foldl_cons]
  have hkept : ∃ k, Kept st₀ r b k st ∧ ∀ st, Kept st₀ r b k st →
      Kept st₀ r b k (SharedCounters.round (against r b) st) := by
    rw [heq, List.mem_append, List.mem_cons] at hq
    obtain hq | hq | hq := hq
    · refine ⟨1, ⟨h.framed, h.tally.trans zero_le_one, h.status⟩, fun st h => ?_⟩
      rw [hround h]
      exact ((h.foldl_reset hbefore hq hid hdq).self (by simpa using hlt) hd).foldl hafter
    · exact absurd hq hqr
    · refine ⟨0, h, fun st h => ?_⟩
      rw [hround h]
      exact ((h.foldl hbefore).self (by simpa using hlt) hd).foldl_reset hafter hq hid hdq
  obtain ⟨k, hstart, hstep⟩ := hkept
  refine ⟨k, ?_⟩
  clear h hround
  induction n generalizing st with
  | zero => exact hstart
  | succ n ih =>
    rw [List.replicate_succ, List.foldl_cons]
    exact ih (hstep st hstart)

end

theorem unshared_of_judgedAlone {st : State} {r : Ref} (hpool : (pool st.fleet).Nodup)
    (hr : r ∈ pool st.fleet) (h : JudgedAlone st r) : Unshared st r := by
  by_contra hshared
  simp only [Unshared, not_or, not_forall, not_le] at hshared
  obtain ⟨hd, ⟨q, hq, hdq, hid, hqr⟩, b, hlt⟩ := hshared
  have hneg : (!b) ≠ b := by cases b <;> decide
  obtain ⟨n, hn, hnb⟩ : ∃ n : ℕ, 1 ≤ n ∧ threshold st (!b) ≤ n :=
    ⟨max 1 (threshold st (!b)).toNat, le_max_left _ _, by omega⟩
  obtain ⟨m, hm⟩ : ∃ m : ℕ, threshold st b ≤ m := ⟨(threshold st b).toNat, by omega⟩
  let first := List.replicate n (fun _ : Ref => !b)
  let along := first ++ List.replicate m (fun _ : Ref => b)
  let opposed := first ++ List.replicate m (against r b)
  have hresults : results r st (along.map steady) = results r st (opposed.map steady) := by
    rw [results_steady, results_steady]
    simp [along, opposed, against]
  -- both runs begin by taking the other status
  have hfirst : Streak st r (!b) n (first.foldl (fun st f => round f st) st) := by
    have hstart : Streak st r (!b) 0 st :=
      ⟨.refl st, Nat.zero_le _, fun hk => absurd hk (by omega), fun hk => absurd hk (by omega)⟩
    simpa using hstart.rounds hr hd n
  have hreset := hfirst.reset hn
  rw [Bool.not_not] at hreset
  have halong : (along.foldl (fun st f => round f st) st |>.fleet.get r).status = outcome b := by
    have hstreak : Streak st r b 0 (first.foldl (fun st f => round f st) st) :=
      ⟨hfirst.framed, Nat.zero_le _, fun hk => absurd hk (by omega), fun hk => absurd hk (by omega)⟩
    have hend := hstreak.rounds hr hd m
    rw [Nat.zero_add] at hend
    rw [List.foldl_append]
    exact hend.status (by omega) hm
  have hopposed : (opposed.foldl (fun st f => round f st) st |>.fleet.get r).status =
      outcome (!b) := by
    have hkept : Kept st r b 0 (first.foldl (fun st f => round f st) st) :=
      ⟨hfirst.framed, hreset.le, hfirst.status hn hnb⟩
    obtain ⟨k, hend⟩ := hkept.rounds hpool hr hd hlt hq hqr hid hdq m
    rw [List.foldl_append]
    exact hend.status
  have hstatus := h _ _ hresults (along.map steady).length
  have hlength : (along.map steady).length = (opposed.map steady).length := by
    simp [along, opposed]
  rw [List.take_length, hlength, List.take_length, statusAfter, statusAfter, runForever_steady,
    runForever_steady, halong, hopposed] at hstatus
  cases b <;> simp [outcome] at hstatus

/-- The status of an instance follows from its own checks, whatever the others answer, exactly when
its counters are its own or no counting is needed. -/
theorem judged_alone_iff (st : State) (hpool : (pool st.fleet).Nodup) (r : Ref)
    (hr : r ∈ pool st.fleet) : JudgedAlone st r ↔ Unshared st r :=
  ⟨unshared_of_judgedAlone hpool hr, judgedAlone_of_unshared⟩

theorem users_judged_alone : JudgedAlone usersState 1 :=
  (judged_alone_iff usersState (by decide) 1 (by decide)).mpr (.inr (.inl (by decide)))

def sameIds : State :=
  { checker := { timeoutS := 1, failureThreshold := 3, successThreshold := 2 }
    fleet :=
      { get := fun r => { id := "a", host := if r = 0 then "users" else "orders", port := 8080 }
        byService := (Dict.empty.set "users-svc" [0]).set "orders-svc" [1] } }

/-- Two passes make the first instance healthy, unless the instance of the other service fails
in between. -/
theorem other_service_misjudges :
    (∀ e ∈ sameIds.fleet.byService.items,
      (e.2.map (fun r => (sameIds.fleet.get r).id)).Nodup) ∧
    ∃ rounds rounds', results 0 sameIds rounds = results 0 sameIds rounds' ∧
      statusAfter 0 sameIds (rounds.take 2) = .healthy ∧
      statusAfter 0 sameIds (rounds'.take 2) = .unknown :=
  ⟨by decide, [steady (fun _ => true), steady (fun _ => true)],
    [steady (against 0 true), steady (against 0 true)], by decide, by decide, by decide⟩

end Sentinel.SharedCounters
