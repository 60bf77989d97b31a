import TokenScan.Proofs.Session.Reachable

/-!
# Asking for tokens one at a time

Draining a session and asking it for single tokens agree: the next token is the first of those that
are left (`next_fst`), and behind it the others are left (`drain_next`). So the `i`-th of any number
of requests is answered with the `i`-th token, and with none once there are no more (`pull_fst`).

A session that has been asked shows what is left by where it stands: at the start of the next token,
or at the end of its text if nothing is left (`offset_eq_of_started`). A request that finds nothing
leaves the session as it is from then on (`atEnd_of_none_mem_pull`, `pull_of_atEnd`).
-/

namespace TokenScan

namespace Session

variable (s : Session)

/-! ### The next token and the ones behind it -/

theorem started_next : s.next.2.started = true := by
  rcases hs : s.started with _ | _
  · rw [s.next_of_not_started hs]
    split_ifs
    · exact s.started_start
    · exact s.start.started_produce s.started_start
  · rcases hend : s.atEnd with _ | _
    · rw [s.next_of_not_atEnd hs hend]
      exact s.started_produce hs
    · rw [s.next_of_atEnd hs hend]
      exact hs

/-- **A request takes the first of the tokens that are left**, and leaves the others. -/
theorem next_fst_and_drain_next :
    s.next.1 = s.drain.1.head? ∧ s.next.2.drain.1 = s.drain.1.tail := by
  rcases hs : s.started with _ | _
  · rw [s.next_of_not_started hs, s.drain_of_not_started hs]
    split_ifs with hend
    · exact ⟨rfl, congrArg Prod.fst (s.start.logFinished.drain_of_atEnd s.started_start hend)⟩
    · rw [Bool.not_eq_true] at hend
      rw [s.start.drain_of_not_atEnd s.started_start hend]
      exact ⟨rfl, rfl⟩
  · rcases hend : s.atEnd with _ | _
    · rw [s.next_of_not_atEnd hs hend, s.drain_of_not_atEnd hs hend]
      exact ⟨rfl, rfl⟩
    · rw [s.next_of_atEnd hs hend, s.drain_of_atEnd hs hend]
      exact ⟨rfl, rfl⟩

theorem next_fst : s.next.1 = s.drain.1.head? := s.next_fst_and_drain_next.1

theorem drain_next : s.next.2.drain.1 = s.drain.1.tail := s.next_fst_and_drain_next.2

/-- Draining ends with the same session, whether or not a request is made before. -/
theorem drain_next_snd : s.next.2.drain.2 = s.drain.2 := by
  rcases hs : s.started with _ | _
  · rw [s.next_of_not_started hs, s.drain_of_not_started hs]
    split_ifs with hend
    · exact congrArg Prod.snd (s.start.logFinished.drain_of_atEnd s.started_start hend)
    · rw [Bool.not_eq_true] at hend
      rw [s.start.drain_of_not_atEnd s.started_start hend]
  · rcases hend : s.atEnd with _ | _
    · rw [s.next_of_not_atEnd hs hend, s.drain_of_not_atEnd hs hend]
    · rw [s.next_of_atEnd hs hend]

/-! ### Any number of requests -/

/-- Requests in two parts: the second part goes on where the first one stopped. -/
theorem pull_add (m n : ℕ) :
    s.pull (m + n) = ((s.pull m).1 ++ ((s.pull m).2.pull n).1, ((s.pull m).2.pull n).2) := by
  induction m generalizing s with
  | zero => rw [Nat.zero_add]; rfl
  | succ m ih =>
    have hunfold (k : ℕ) :
        s.pull (k + 1) = (s.next.1 :: (s.next.2.pull k).1, (s.next.2.pull k).2) := rfl
    rw [Nat.add_right_comm, hunfold (m + n), ih s.next.2, hunfold m]
    rfl

/-- One more request, behind all the others. -/
theorem pull_succ (k : ℕ) :
    s.pull (k + 1) = ((s.pull k).1 ++ [(s.pull k).2.next.1], (s.pull k).2.next.2) :=
  s.pull_add k 1

/-- Behind `k` requests, the first `k` tokens are no longer left. -/
theorem drain_pull (k : ℕ) : (s.pull k).2.drain.1 = s.drain.1.drop k := by
  induction k with
  | zero => rfl
  | succ k ih => rw [pull_succ, drain_next, ih, List.tail_drop]

theorem drain_pull_snd (k : ℕ) : (s.pull k).2.drain.2 = s.drain.2 := by
  induction k with
  | zero => rfl
  | succ k ih => rw [pull_succ, drain_next_snd, ih]

/-- The request behind `k` others is answered with the token behind `k` others. -/
theorem next_pull_fst (k : ℕ) : (s.pull k).2.next.1 = s.drain.1[k]? := by
  rw [next_fst, drain_pull, List.head?_drop]

/-- **The `i`-th request is answered with the `i`-th token**, and with none behind the last. -/
theorem pull_fst (k : ℕ) : (s.pull k).1 = (List.range k).map fun i ↦ s.drain.1[i]? := by
  induction k with
  | zero => rfl
  | succ k ih =>
    rw [pull_succ, ih, next_pull_fst, List.range_succ, List.map_append]
    rfl

/-- The session is started behind the first request. -/
theorem started_pull {k : ℕ} (hk : 0 < k) : (s.pull k).2.started = true := by
  obtain ⟨k, rfl⟩ := Nat.exists_eq_succ_of_ne_zero hk.ne'
  rw [Nat.succ_eq_add_one, pull_succ]
  exact (s.pull k).2.started_next

/-! ### Where a session stands -/

section Started

variable {s} (hs : s.started = true)
include hs

/-- **A session that has been asked is at the end exactly if nothing is left.** -/
theorem atEnd_iff_drain : s.atEnd = true ↔ s.drain.1 = [] := by
  rcases hend : s.atEnd with _ | _
  · simp [s.drain_of_not_atEnd hs hend]
  · simp [s.drain_of_atEnd hs hend]

/-- **A session that has been asked stands where the next token starts**, or at the end of its text
if no token is left. -/
theorem offset_eq_of_started {text : List Char} (hin : s.cursor.Within text) :
    (s.cursor.position.offset : ℤ) = (s.drain.1.head?.map Token.offset).getD text.length := by
  rcases hend : s.atEnd with _ | _
  · rw [s.drain_of_not_atEnd hs hend, List.head?_cons, s.produce_fst]
    rfl
  · rw [s.drain_of_atEnd hs hend, hin.offset_of_atEnd hend]
    rfl

end Started

/-- A request that finds nothing leaves a session at the end behind. -/
theorem atEnd_of_next_eq_none (h : s.next.1 = none) : s.next.2.atEnd = true := by
  rw [atEnd_iff_drain s.started_next, drain_next]
  rw [next_fst, List.head?_eq_none_iff] at h
  rw [h, List.tail_nil]

/-- **Behind the end nothing happens any more**: no token, no change, nothing logged. -/
theorem pull_of_atEnd (hs : s.started = true) (hend : s.atEnd = true) (k : ℕ) :
    s.pull k = (List.replicate k none, s) := by
  induction k with
  | zero => rfl
  | succ k ih => rw [pull_succ, ih, s.next_of_atEnd hs hend, List.replicate_succ']

/-- Requests of which one found nothing leave a session at the end behind. -/
theorem atEnd_of_none_mem_pull {k : ℕ} (h : none ∈ (s.pull k).1) :
    (s.pull k).2.started = true ∧ (s.pull k).2.atEnd = true := by
  rw [pull_fst, List.mem_map] at h
  obtain ⟨i, hi, hnone⟩ := h
  have hik : i < k := List.mem_range.1 hi
  have hstarted := s.started_pull (Nat.zero_lt_of_lt hik)
  refine ⟨hstarted, (atEnd_iff_drain hstarted).2 ?_⟩
  rw [drain_pull, List.drop_eq_nil_iff]
  exact (List.getElem?_eq_none_iff.1 hnone).trans hik.le

/-- **Every token shortens the unread text**, also the first one. -/
theorem length_rest_next_lt {t : Token} (h : s.next.1 = some t) :
    s.next.2.cursor.rest.length < s.cursor.rest.length := by
  rcases hs : s.started with _ | _
  · rw [s.next_of_not_started hs] at h ⊢
    split_ifs at h ⊢ with hend
    exact (s.start.length_rest_produce_lt (Bool.eq_false_of_not_eq_true hend)).trans_le
      s.length_rest_start_le
  · rcases hend : s.atEnd with _ | _
    · rw [s.next_of_not_atEnd hs hend]
      exact s.length_rest_produce_lt hend
    · rw [s.next_of_atEnd hs hend] at h
      exact absurd h (by simp)

end Session

/-- The session behind any number of requests is reachable, waiting for the next one. -/
theorem Moment.reachable_pull (source : String) (origin : Option String) (config : Config) (k : ℕ) :
    ∃ answer, Reachable source origin config
      ⟨((Session.ofSource source origin config).pull k).2, .idle answer⟩ := by
  induction k with
  | zero => exact ⟨none, .refl⟩
  | succ k ih =>
    obtain ⟨answer, h⟩ := ih
    rw [Session.pull_succ]
    exact ⟨_, h.next⟩

end TokenScan
