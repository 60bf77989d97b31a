import TokenScan.Proofs.Cutting
import TokenScan.Proofs.Logging
import TokenScan.Proofs.Skipping

/-!
# The record of an open comment

A comment that is never closed gives no token. All that a session keeps of it is a record, and
`openComment_recorded` says that the record is right: it is there exactly if the text behind the last
token is a gap and an open comment, and then it names the place where the comment opens. It is made
with the last token, or with the first request if there are no tokens, and stays as it is from then
on.

## What the record says, and when it is made

What is left of a text behind its last token has a scan without tokens, and such a scan is what
skipping comes to (`Scan.skips_of_nil`). So the first half is about skipping: there is one place to
come to, hence one way to split the text (`Skips.openCommentRecord`).

The second half needs no scan. Before its end a session has no record (`Session.OpenAtEnd`), and at
its end nothing happens any more; and a session is at its end from the request on that returns the
last token.
-/

namespace TokenScan

open Grammar

/-! ### The text behind the last token -/

/-- Where the last token ends, and the beginning of the text if there is none. -/
def Token.lastEnd (ts : List Token) : ℤ := (ts.getLast?.map Token.endOffset).getD 0

section Scans

variable {origin : Json} {text : List Char} {ts : List Token} {opened : Option Position}

/-- **Behind the last token no token is left**, and the comment that is open there is the one of the
whole text. -/
theorem Scan.behind_tokens (h : Scan origin .start text ts opened) :
    ∃ e ≤ text.length, Token.lastEnd ts = e ∧
      Scan origin (.after (text.take e)) (text.drop e) [] opened := by
  rcases ts.eq_nil_or_concat' with rfl | ⟨before, x, rfl⟩
  · exact ⟨0, Nat.zero_le _, rfl, h⟩
  · obtain ⟨read, w, rest, k, rfl, rfl, -, -, -, hrest⟩ := h.around
    refine ⟨(read ++ w).length, ?_, ?_, ?_⟩
    · simp only [List.length_append]
      omega
    · simp [Token.lastEnd, Token.ofLexeme, Position.start]
    · rw [← List.append_assoc, List.take_left, List.drop_left]
      exact hrest

/-- **A text without tokens is skipped to its end.** -/
theorem Scan.skips_of_nil {e : ℕ} (he : e ≤ text.length)
    (h : Scan origin (.after (text.take e)) (text.drop e) [] opened) :
    ∃ o, Skips text e text.length o ∧ opened = o.map fun n ↦ .after (text.take n) := by
  obtain ⟨q, o, hskips⟩ := exists_skips he
  obtain ⟨hrest, -, hopened⟩ | ⟨w, rest, k, us, -, -, hnil, -⟩ :=
    h.start_of_skipFrom hskips.skipGap_eq
  · have hq : q = text.length := Nat.le_antisymm hskips.le_length (List.drop_eq_nil_iff.1 hrest)
    subst hq
    exact ⟨o, hskips, hopened⟩
  · exact absurd hnil (List.cons_ne_nil _ _).symm

end Scans

/-! ### What the record says -/

/-- **The right record of an open comment**, for a text whose last token ends at an offset. -/
structure OpenCommentRecord (text : List Char) (origin : Json) (e : ℕ)
    (record : Option Location) : Prop where
  /-- There is a record exactly if a gap and an open comment are left behind the last token. -/
  isSome_iff : record.isSome = true ↔
    ∃ g ∈ gap, ∃ r ∈ openComment, text.drop e = g ++ r
  /-- There is one way only to split what is left. -/
  split_unique : ∀ g ∈ gap, ∀ r ∈ openComment, text.drop e = g ++ r →
    ∀ g' ∈ gap, ∀ r' ∈ openComment, text.drop e = g' ++ r' → g' = g ∧ r' = r
  /-- The record names the place behind the gap, where the comment opens. -/
  record_eq : ∀ g ∈ gap, ∀ r ∈ openComment, text.drop e = g ++ r →
    record = some (.atOffset text (e + g.length) origin)
  /-- Without a record, nothing but a gap is left. -/
  mem_gap : record = none → text.drop e ∈ gap

/-- The record of a comment that skipping finds open, by the offset where the comment opens. -/
theorem Skips.recordOf_eq {text : List Char} {n q : ℕ} {opened : Option ℕ}
    (h : Skips text n q opened) (origin : Json) :
    Session.recordOf origin (opened.map fun o ↦ .after (text.take o)) =
      opened.map (.atOffset text · origin) := by
  cases opened with
  | none => rfl
  | some o => exact congrArg some (Location.ofPosition_after_take h.opened_le_length origin)

/-- **What skipping to the end finds open is the right record.** -/
theorem Skips.openCommentRecord {text : List Char} {e : ℕ} {opened : Option ℕ}
    (h : Skips text e text.length opened) (origin : Json) :
    OpenCommentRecord text origin e (opened.map (.atOffset text · origin)) where
  isSome_iff := by
    constructor
    · intro hsome
      cases h with
      | stops => exact absurd hsome (by simp)
      | runsOut hle hg hr => exact ⟨_, hg, _, hr, drop_eq_extract_append hle⟩
    · rintro ⟨g, hg, r, hr, hsplit⟩
      obtain ⟨-, rfl⟩ := h.unique (.of_openComment hsplit hg hr)
      rfl
  split_unique g hg r hr hsplit g' hg' r' hr' hsplit' := by
    -- both gaps end at the one offset where the comment opens
    obtain ⟨-, ho⟩ := Skips.unique (.of_openComment hsplit hg hr) (.of_openComment hsplit' hg' hr')
    have hlength : g'.length = g.length := Nat.add_left_cancel (Option.some.inj ho)
    exact List.append_inj (hsplit'.symm.trans hsplit) hlength
  record_eq g hg r hr hsplit := by
    obtain ⟨-, rfl⟩ := h.unique (.of_openComment hsplit hg hr)
    rfl
  mem_gap hnone := by
    cases h with
    | stops hle _ hg hs =>
      rw [drop_eq_extract_append hle, List.drop_length, List.append_nil]
      exact hg
    | runsOut => exact absurd hnone (by simp)

/-! ### When it is made -/

namespace Session

/-- A session that has been asked for all its tokens is the one that draining leads to. -/
theorem drain_snd_eq_pull (s : Session) {k : ℕ} (hk : 0 < k) (hlength : s.drain.1.length ≤ k) :
    (s.pull k).2.atEnd = true ∧ s.drain.2 = (s.pull k).2 := by
  have hstarted := s.started_pull hk
  have hend : (s.pull k).2.atEnd = true := by
    rw [atEnd_iff_drain hstarted, drain_pull]
    exact List.drop_of_length_le hlength
  refine ⟨hend, ?_⟩
  rw [← s.drain_pull_snd k, drain_of_atEnd _ hstarted hend]

variable (source : String) (origin : Option String) (config : Config)

/-- **The record is made by the last request that gets something done**: there is none before, and it
does not change behind. -/
theorem openComment_pull (k : ℕ) :
    ((ofSource source origin config).pull k).2.openComment =
      if k < max 1 (tokenize source origin config).length then none
      else (ofSource source origin config).drain.2.openComment := by
  split_ifs with hk
  · cases k with
    | zero => rfl
    | succ k =>
      -- a token is left, so the session is not at its end
      obtain ⟨hopen, -⟩ := complete_pull source origin config k
      refine hopen.openComment_eq_none (Bool.eq_false_of_not_eq_true ?_)
      rw [atEnd_iff_drain (started_pull _ (Nat.succ_pos k)), drain_pull, List.drop_eq_nil_iff]
      show ¬ (tokenize source origin config).length ≤ k + 1
      omega
  · rw [((ofSource source origin config).drain_snd_eq_pull (k := k) (by omega) ?_).2]
    show (tokenize source origin config).length ≤ k
    omega

end Session

/-- **An open comment is recorded exactly.** When all tokens have been asked for, the record is the
right one for the text behind the last of them, and the session stands at the end of its text. The
record is not there before the request that returns the last token, or before the first one if there
are no tokens; it is there behind that request, and never changes. -/
theorem openComment_recorded (source : String) (origin : Option String) (config : Config) :
    (∃ e : ℕ, Token.lastEnd (tokenize source origin config) = e ∧
      OpenCommentRecord source.toList (Session.ofSource source origin config).originValue e
        (Session.ofSource source origin config).drain.2.openComment) ∧
      (Session.ofSource source origin config).drain.2.cursor.position.offset = source.length ∧
      ((Session.ofSource source origin config).pull
          (max 1 (tokenize source origin config).length - 1)).2.next.1 =
        (tokenize source origin config).getLast? ∧
      ∀ k, ((Session.ofSource source origin config).pull k).2.openComment =
        if k < max 1 (tokenize source origin config).length then none
        else (Session.ofSource source origin config).drain.2.openComment := by
  refine ⟨?_, ?_, ?_, Session.openComment_pull source origin config⟩
  · obtain ⟨opened, hscan, hrecord⟩ := scan_ofSource source origin config
    obtain ⟨e, he, hend, hbehind⟩ := hscan.behind_tokens
    obtain ⟨o, hskips, rfl⟩ := hbehind.skips_of_nil he
    refine ⟨e, hend, ?_⟩
    rw [hrecord, hskips.recordOf_eq]
    exact hskips.openCommentRecord _
  · obtain ⟨hend, hdrain⟩ := (Session.ofSource source origin config).drain_snd_eq_pull
      (Nat.succ_pos _) (Nat.le_succ (tokenize source origin config).length)
    obtain ⟨answer, hreach⟩ := Moment.reachable_pull source origin config
      ((tokenize source origin config).length + 1)
    rw [hdrain, ← String.length_toList]
    exact hreach.within.offset_of_atEnd hend
  · rw [Session.next_fst, Session.drain_pull, List.head?_drop, List.getLast?_eq_getElem?]
    congr 1
    omega

/-- Behind the last token, a comment ends in a run of stars, and the one that follows it stays open
since its closing delimiter would need the star that opens it. The record is made with that token. -/
theorem openComment_recorded_stars :
    Token.lastEnd (tokenize "a\nb/***/ /*/" none .default) = 3 ∧
      (Session.ofSource "a\nb/***/ /*/" none .default).drain.2.openComment =
        some ⟨2, 8, 9, 9, none, none, .null⟩ ∧
      ((Session.ofSource "a\nb/***/ /*/" none .default).pull 1).2.openComment = none ∧
      ((Session.ofSource "a\nb/***/ /*/" none .default).pull 2).2.openComment =
        some ⟨2, 8, 9, 9, none, none, .null⟩ := by
  obtain ⟨⟨e, he, hrecord⟩, -, -, hpull⟩ := openComment_recorded "a\nb/***/ /*/" none .default
  obtain rfl : e = 3 := Int.ofNat.inj he.symm
  have hgap : opener ++ (['*'] ++ (closer ++ [' '])) ∈ gap :=
    comment_append_mem_gap (by decide) (blank_mem_gap (by decide))
  have hfinal : (Session.ofSource "a\nb/***/ /*/" none .default).drain.2.openComment =
      some ⟨2, 8, 9, 9, none, none, .null⟩ :=
    (hrecord.record_eq _ hgap (opener ++ ['/']) ⟨['/'], by decide, rfl⟩ rfl).trans rfl
  exact ⟨he, hfinal, (hpull 1).trans rfl, (hpull 2).trans hfinal⟩

end TokenScan
