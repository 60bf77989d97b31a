import TokenScan.Proofs.Gap
import TokenScan.Proofs.Recognition.Longest
import TokenScan.Session

/-!
# What the operations of a session do

One equation for each operation, in terms of the unread text: `skip_eq`, `count_eq`,
`produce_fst` and the equations for the fields behind `produce`. Scanning a session to its end is
then described without its bound (`drain_of_atEnd`, `drain_of_not_atEnd`, `drain_of_not_started`),
since the unread text shrinks with every token (`length_rest_produce_lt`).
-/

namespace TokenScan

open Grammar

/-- The token of a lexeme that starts at a position. -/
def Token.ofLexeme (origin : Json) (p : Position) (w : List Char) (k : Category) : Token where
  lexeme := String.ofList w
  category := k
  line := p.line
  column := p.column
  offset := p.offset
  endOffset := p.offset + w.length
  origin

/-! ### Sizes -/

/-- The first phase takes at least one character, if there is one. -/
theorem Phase.taken_start_ne_nil (c : Char) (rest : List Char) :
    Phase.start.taken (c :: rest) ≠ [] := by
  rcases hm : Phase.start.move c rest.head? with q | k | _
  · rw [Phase.taken_of_shift hm]
    exact List.cons_ne_nil _ _
  · rw [Phase.taken_of_last hm]
    exact List.cons_ne_nil _ _
  · exact absurd hm (Phase.move_start_ne_stop c _)

/-- Skipping leaves no more unread than there was. -/
theorem length_rest_skipGap_le (c : Cursor) : (skipGap c).cursor.rest.length ≤ c.rest.length := by
  obtain ⟨p, text⟩ := c
  obtain ⟨g, rest, hg, rfl, hrest | hrest⟩ := exists_gap_append text
  · rw [skipGap, skipFrom_gap_append hg, skipFrom_of_settled hrest]
    simp
  · rw [skipGap, skipFrom_gap_append hg, skipFrom_of_openComment hrest]
    simp

namespace Recognizer

/-- **Recognizing from a cursor**: the lexeme is what is taken from the unread text. -/
theorem recognize_eq (r : Recognizer) :
    ∃ current, r.recognize =
      { cursor :=
          ⟨r.cursor.position.advanceOver (Phase.start.taken r.cursor.rest),
            r.cursor.rest.drop (Phase.start.taken r.cursor.rest).length⟩
        state := .done
        current
        lexeme := String.ofList (Phase.start.taken r.cursor.rest)
        category := some (Phase.start.verdict "" r.cursor.rest)
        saved := r.cursor.position } := by
  obtain ⟨current, h⟩ := settle_eq (r := r.begin) rfl
  refine ⟨current, h.trans ?_⟩
  simp [begin, save]

end Recognizer

namespace Session

variable (s : Session)

/-! ### Single operations -/

theorem emitIf_eq (switch : Json) (e : Event) :
    s.emitIf switch e = { s with log := if switch.truthy then s.log.push e else s.log } := by
  unfold emitIf emit
  split
  · rfl
  · rfl

/-- Skipping moves the cursor, and records and reports an open comment if there is one. -/
theorem skip_eq :
    s.skip =
      { s with
        recognizer := { s.recognizer with cursor := (skipGap s.cursor).cursor }
        openComment :=
          ((skipGap s.cursor).openedAt.map (Location.ofPosition · s.originValue)).or s.openComment
        log :=
          match (skipGap s.cursor).openedAt with
          | none => s.log
          | some p =>
            if s.config.warnOpenComment.truthy then
              s.log.push (.openComment (.ofPosition p s.originValue))
            else s.log } := by
  rcases h : (skipGap s.cursor).openedAt with _ | p
  · simp only [skip, h]
    rfl
  · simp only [skip, h, reportOpenComment, emitIf_eq]
    rfl

/-- Counting a token changes the counters and the log only. -/
theorem count_eq (t : Token) :
    s.count t =
      { s with
        tokens := s.tokens + 1
        malformed := if t.isMalformed then s.malformed + 1 else s.malformed
        log :=
          if t.isMalformed then
            if s.config.warnMalformed.truthy then s.log.push (.malformed t.lexeme t.location)
            else s.log
          else s.log } := by
  unfold count
  split
  · rw [emitIf_eq]
  · rfl

theorem logIfFinished_eq :
    s.logIfFinished =
      { s with
        log :=
          if s.atEnd then s.log.push (.finished s.originName s.tokens s.malformed)
          else s.log } := by
  unfold logIfFinished logFinished emit
  split
  · rfl
  · rfl

/-! ### Producing a token -/

/-- The text of the next lexeme. -/
def nextLexeme : List Char := Phase.start.taken s.cursor.rest

/-- The cursor behind the next lexeme. -/
def behindLexeme : Cursor :=
  ⟨s.cursor.position.advanceOver s.nextLexeme, s.cursor.rest.drop s.nextLexeme.length⟩

/-- The session behind the next lexeme, before the gap that follows is skipped. -/
theorem scanToken_eq :
    ∃ recognizer : Recognizer, recognizer.cursor = s.behindLexeme ∧
      s.scanToken =
        (.ofLexeme s.originValue s.cursor.position s.nextLexeme
            (Phase.start.verdict "" s.cursor.rest),
          { s with recognizer }.count
            (.ofLexeme s.originValue s.cursor.position s.nextLexeme
              (Phase.start.verdict "" s.cursor.rest))) := by
  obtain ⟨current, hr⟩ := s.recognizer.recognize_eq
  refine ⟨s.recognizer.recognize, by rw [hr]; rfl, ?_⟩
  have htoken : { s with recognizer := s.recognizer.recognize }.token =
      .ofLexeme s.originValue s.cursor.position s.nextLexeme
        (Phase.start.verdict "" s.cursor.rest) := by
    rw [hr]
    simp [token, Token.ofLexeme, cursor, nextLexeme, originValue]
  rw [scanToken, htoken]

theorem produce_fst :
    s.produce.1 = .ofLexeme s.originValue s.cursor.position s.nextLexeme
      (Phase.start.verdict "" s.cursor.rest) := by
  obtain ⟨r, -, h⟩ := s.scanToken_eq
  show s.scanToken.1 = _
  rw [h]

/-- **What a token leaves behind**: the gap after it is skipped, and the rest of the session that
later tokens depend on stays as it is. -/
theorem produce_snd :
    s.produce.2.cursor = (skipGap s.behindLexeme).cursor ∧
      s.produce.2.openComment =
        ((skipGap s.behindLexeme).openedAt.map (Location.ofPosition · s.originValue)).or
          s.openComment ∧
      s.produce.2.originValue = s.originValue ∧ s.produce.2.started = s.started := by
  obtain ⟨r, hr, h⟩ := s.scanToken_eq
  have hproduce : s.produce.2 = s.scanToken.2.skip.logIfFinished := rfl
  rw [hproduce, h, logIfFinished_eq, count_eq, skip_eq, ← hr]
  exact ⟨rfl, rfl, rfl, rfl⟩

theorem started_produce (hs : s.started = true) : s.produce.2.started = true := by
  rw [s.produce_snd.2.2.2, hs]

/-- **Every token shortens the unread text.** -/
theorem length_rest_produce_lt (h : s.atEnd = false) :
    s.produce.2.cursor.rest.length < s.cursor.rest.length := by
  rw [s.produce_snd.1]
  refine (length_rest_skipGap_le _).trans_lt ?_
  obtain ⟨c, rest, hrest⟩ : ∃ c rest, s.cursor.rest = c :: rest := by
    rw [atEnd, ← Bool.not_eq_true, Cursor.atEnd_iff] at h
    exact List.exists_cons_of_ne_nil h
  have htaken := List.length_pos_iff.2 (Phase.taken_start_ne_nil c rest)
  simp only [behindLexeme, nextLexeme, hrest, List.length_drop]
  simp only [List.length_cons]
  omega

/-! ### Scanning to the end -/

theorem started_start : s.start.started = true := by
  rw [start, skip_eq]
  rfl

/-- Starting a session reads no more than the first gap. -/
theorem length_rest_start_le : s.start.cursor.rest.length ≤ s.cursor.rest.length := by
  rw [start, skip_eq]
  exact length_rest_skipGap_le _

theorem next_of_atEnd (hs : s.started = true) (h : s.atEnd = true) : s.next = (none, s) := by
  simp [next, hs, h]

theorem next_of_not_atEnd (hs : s.started = true) (h : s.atEnd = false) :
    s.next = (some s.produce.1, s.produce.2) := by
  simp [next, hs, h]

theorem next_of_not_started (hs : s.started = false) :
    s.next =
      if s.start.atEnd then (none, s.start.logFinished)
      else (some s.start.produce.1, s.start.produce.2) := by
  simp [next, hs]

/-- The bound does not matter as long as it holds for the unread text. -/
theorem drainWithin_congr {unread unread' : List Char} {s : Session} (hs : s.started = true)
    (h : s.cursor.rest.length ≤ unread.length) (h' : s.cursor.rest.length ≤ unread'.length) :
    drainWithin unread s = drainWithin unread' s := by
  induction unread generalizing unread' s with
  | nil =>
    have hend : s.atEnd = true :=
      Cursor.atEnd_iff.2 (List.length_eq_zero_iff.1 (Nat.le_zero.1 h))
    cases unread' with
    | nil => rfl
    | cons _ _ => simp [drainWithin, next_of_atEnd s hs hend]
  | cons _ unread ih =>
    by_cases hend : s.atEnd = true
    · cases unread' with
      | nil => simp [drainWithin, next_of_atEnd s hs hend]
      | cons _ _ => simp [drainWithin, next_of_atEnd s hs hend]
    · rw [Bool.not_eq_true] at hend
      have hlt := s.length_rest_produce_lt hend
      cases unread' with
      | nil =>
        rw [List.length_nil] at h'
        omega
      | cons _ unread' =>
        rw [List.length_cons] at h h'
        -- both bounds have room for the session behind the token, since it has less to read
        have hbehind : drainWithin unread s.produce.2 = drainWithin unread' s.produce.2 :=
          ih (s.started_produce hs) (by omega) (by omega)
        simp only [drainWithin, next_of_not_atEnd s hs hend]
        rw [hbehind]

theorem drain_of_atEnd (hs : s.started = true) (h : s.atEnd = true) : s.drain = ([], s) := by
  rw [drain, Cursor.atEnd_iff.1 h, drainWithin, next_of_atEnd s hs h]

/-- **Scanning on**: the next token, and then what the session behind it gives. -/
theorem drain_of_not_atEnd (hs : s.started = true) (h : s.atEnd = false) :
    s.drain = (s.produce.1 :: s.produce.2.drain.1, s.produce.2.drain.2) := by
  have hlt := s.length_rest_produce_lt h
  obtain ⟨c, rest, hrest⟩ := List.exists_cons_of_length_pos (Nat.zero_lt_of_lt hlt)
  rw [hrest, List.length_cons] at hlt
  have hbound : drainWithin rest s.produce.2 = s.produce.2.drain :=
    drainWithin_congr (s.started_produce hs) (by omega) (Nat.le_refl _)
  rw [drain, hrest]
  simp only [drainWithin, next_of_not_atEnd s hs h, hbound]

/-- **Scanning from the very beginning**: the first gap is skipped, and the rest is as always. -/
theorem drain_of_not_started (hs : s.started = false) :
    s.drain = if s.start.atEnd then ([], s.start.logFinished) else s.start.drain := by
  -- the bound was taken before the first gap was skipped, and it is still large enough behind it
  have hle := s.length_rest_start_le
  by_cases hend : s.start.atEnd = true
  · rw [if_pos hend, drain]
    cases s.cursor.rest with
    | nil => simp [drainWithin, next_of_not_started s hs, hend]
    | cons c rest => simp [drainWithin, next_of_not_started s hs, hend]
  · rw [if_neg hend]
    rw [Bool.not_eq_true] at hend
    have hlt := s.start.length_rest_produce_lt hend
    obtain ⟨c, rest, hrest⟩ := List.exists_cons_of_length_pos (Nat.zero_lt_of_lt (hlt.trans_le hle))
    rw [hrest, List.length_cons] at hle
    have hbound : drainWithin rest s.start.produce.2 = s.start.produce.2.drain :=
      drainWithin_congr (s.start.started_produce s.started_start) (by omega) (Nat.le_refl _)
    rw [s.start.drain_of_not_atEnd s.started_start hend, drain, hrest]
    simp only [drainWithin, next_of_not_started s hs, hend, Bool.false_eq_true, if_false, hbound]

end Session

end TokenScan
