import TokenScan.Proofs.Position
import TokenScan.Proofs.Session.Basic
import TokenScan.Session.Operation

/-!
# Skipping passes all of a gap and nothing else

What a session skips, from any offset of a text, and whatever the session has done before. `Skips`
says where skipping has to come to, by offsets and the grammar alone: behind the longest gap, or to
the end of the text if the gap is followed by a comment that is never closed. There is one such
place (`Skips.unique`), and `skip_exact` says that skipping comes to it, records a comment exactly in
the second case, and does nothing more when it is repeated.

## What each part rests on

* *Uniqueness* is read off the function. Wherever skipping has to come to, `skipGap` comes there
  (`Skips.skipGap_eq`), and a function has one value. No two splits of a text are compared.
* *Existence* is the split of a text into a gap and what follows it (`exists_gap_append`), said by
  offsets.
* *Repetition* rests on what is left: nothing starts a gap there, and where nothing does, skipping
  leaves the session as it is (`Session.skip_of_settled`).
-/

namespace TokenScan

open Grammar

/-! ### Places of a text by their offsets -/

/-- The cursor at an offset of a text. -/
def Cursor.atOffset (text : List Char) (n : ℕ) : Cursor := ⟨.after (text.take n), text.drop n⟩

/-- The location of an offset of a text, of no extent. Its line and column are read off the text. -/
def Location.atOffset (text : List Char) (n : ℕ) (origin : Json) : Location :=
  ⟨lineAt text n, columnAt text n, n, n, none, none, origin⟩

section Offsets

variable {text : List Char} {n : ℕ}

theorem Position.offset_after_take (hn : n ≤ text.length) : (after (text.take n)).offset = n := by
  rw [offset_after, List.length_take, Nat.min_eq_left hn]

/-- **Moving up to an offset leads to its location.** -/
theorem Location.ofPosition_after_take (hn : n ≤ text.length) (origin : Json) :
    ofPosition (.after (text.take n)) origin = atOffset text n origin := by
  have hagrees := Position.agrees_after (text.take n) (text.drop n)
  have hoffset := Position.offset_after_take hn
  rw [List.take_append_drop] at hagrees
  simp only [ofPosition, atOffset, hagrees.line_eq, hagrees.column_eq, hoffset]

end Offsets

/-! ### Where skipping has to come to -/

/-- **Where skipping comes to from an offset** of a text, and the offset of the comment that it finds
open there. -/
inductive Skips (text : List Char) (n : ℕ) : ℕ → Option ℕ → Prop
  /-- It stops behind a gap, where no further gap starts. -/
  | stops {q : ℕ} (hle : n ≤ q) (hq : q ≤ text.length) (hg : text.extract n q ∈ gap)
    (hs : Settled (text.drop q)) : Skips text n q none
  /-- It runs to the end of the text in a comment that opens behind a gap. -/
  | runsOut {o : ℕ} (hle : n ≤ o) (hg : text.extract n o ∈ gap) (hr : text.drop o ∈ openComment) :
    Skips text n text.length (some o)

section Skips

variable {text g rest : List Char} {n q : ℕ} {opened : Option ℕ}

/-- Skipping stops behind a gap that no further gap follows. -/
theorem Skips.of_settled (hn : n ≤ text.length) (h : text.drop n = g ++ rest) (hg : g ∈ gap)
    (hs : Settled rest) : Skips text n (n + g.length) none := by
  have hlength := congrArg List.length h
  rw [List.length_drop, List.length_append] at hlength
  obtain ⟨hextract, hdrop⟩ := extract_and_drop_of_drop_eq h
  refine .stops (Nat.le_add_right n _) (by omega) ?_ ?_
  · rwa [hextract]
  · rwa [hdrop]

/-- Skipping runs out behind a gap that an open comment follows. -/
theorem Skips.of_openComment (h : text.drop n = g ++ rest) (hg : g ∈ gap)
    (hr : rest ∈ openComment) : Skips text n text.length (some (n + g.length)) := by
  obtain ⟨hextract, hdrop⟩ := extract_and_drop_of_drop_eq h
  refine .runsOut (Nat.le_add_right n _) ?_ ?_
  · rwa [hextract]
  · rwa [hdrop]

/-- **Skipping has somewhere to come to**, from every offset. -/
theorem exists_skips (hn : n ≤ text.length) : ∃ q opened, Skips text n q opened := by
  obtain ⟨g, rest, hg, h, hrest | hrest⟩ := exists_gap_append (text.drop n)
  · exact ⟨_, _, .of_settled hn h hg hrest⟩
  · exact ⟨_, _, .of_openComment h hg hrest⟩

/-- A gap makes no difference to what is skipped behind it. -/
theorem skipGap_atOffset_of_gap (hle : n ≤ q) (hg : text.extract n q ∈ gap) :
    skipGap (.atOffset text n) = skipGap (.atOffset text q) := by
  show skipFrom none (.after (text.take n)) (text.drop n) =
    skipFrom none (.after (text.take q)) (text.drop q)
  rw [drop_eq_extract_append hle, skipFrom_gap_append hg, take_eq_take_append_extract hle,
    Position.after_append]

/-- **Skipping comes to where it has to.** -/
theorem Skips.skipGap_eq (h : Skips text n q opened) :
    skipGap (.atOffset text n) =
      ⟨.atOffset text q, opened.map fun o ↦ .after (text.take o)⟩ := by
  cases h with
  | stops hle _ hg hs =>
    rw [skipGap_atOffset_of_gap hle hg]
    exact skipFrom_of_settled hs
  | @runsOut o hle hg hr =>
    rw [skipGap_atOffset_of_gap hle hg]
    show skipFrom none (.after (text.take o)) (text.drop o) = _
    rw [skipFrom_of_openComment hr, ← Position.after_append, List.take_append_drop,
      Cursor.atOffset, List.take_length, List.drop_length]
    rfl

theorem Skips.le_length (h : Skips text n q opened) : q ≤ text.length := by
  cases h with
  | stops _ hq _ _ => exact hq
  | runsOut => exact Nat.le_refl _

/-- An open comment opens within the text, since it is not empty. -/
theorem Skips.opened_le_length {o : ℕ} (h : Skips text n q (some o)) : o ≤ text.length := by
  cases h with
  | runsOut _ _ hr =>
    obtain ⟨body, -, hbody⟩ := hr
    have hlength := congrArg List.length hbody
    simp only [opener, List.length_drop, List.length_append, List.length_cons] at hlength
    omega

/-- What is left where skipping has come to starts no gap. -/
theorem Skips.settled (h : Skips text n q opened) : Settled (text.drop q) := by
  cases h with
  | stops _ _ _ hs => exact hs
  | runsOut =>
    rw [List.drop_length]
    exact settled_nil

/-- **There is one place to come to**, and at most one comment to find open there. -/
theorem Skips.unique {q' : ℕ} {opened' : Option ℕ} (h : Skips text n q opened)
    (h' : Skips text n q' opened') : q' = q ∧ opened' = opened := by
  -- the offsets of a place are those that the function comes to
  have hkey : ∀ {q : ℕ} {opened : Option ℕ}, Skips text n q opened →
      (skipGap (.atOffset text n)).cursor.position.offset = q ∧
        (skipGap (.atOffset text n)).openedAt.map Position.offset = opened := by
    intro q opened h
    rw [h.skipGap_eq]
    refine ⟨Position.offset_after_take h.le_length, ?_⟩
    cases opened with
    | none => rfl
    | some o => exact congrArg some (Position.offset_after_take h.opened_le_length)
  obtain ⟨hq, hopened⟩ := hkey h
  obtain ⟨hq', hopened'⟩ := hkey h'
  exact ⟨hq'.symm.trans hq, hopened'.symm.trans hopened⟩

end Skips

/-! ### What a session skips -/

namespace Session

variable {s : Session} {text : List Char} {n q : ℕ}

/-- **Nothing happens** where no gap starts. -/
theorem skip_of_settled (h : Settled s.cursor.rest) : s.skip = s := by
  have hskipped : skipGap s.cursor = ⟨s.cursor, none⟩ := skipFrom_of_settled h
  rw [skip, hskipped]
  rfl

section Place

variable (hs : s.cursor = .atOffset text n)
include hs

/-- The cursor comes to where skipping has to come to. -/
theorem cursor_skip {opened : Option ℕ} (h : Skips text n q opened) :
    s.skip.cursor = .atOffset text q := by
  show s.skip.recognizer.cursor = _
  rw [skip_eq, hs, h.skipGap_eq]

/-- If skipping stops, the cursor is moved and nothing else happens. -/
theorem skip_of_stops (h : Skips text n q none) : s.skip = s.moveTo (.atOffset text q) := by
  rw [skip, hs, h.skipGap_eq]
  rfl

/-- If skipping runs out, the open comment is recorded where it opens, and warned about if asked
to. -/
theorem skip_of_runsOut {o : ℕ} (h : Skips text n q (some o)) :
    s.skip.openComment = some (.atOffset text o s.originValue) ∧
      s.skip.log =
        if s.config.warnOpenComment.truthy then
          s.log.push (.openComment (.atOffset text o s.originValue))
        else s.log := by
  rw [skip_eq, hs, h.skipGap_eq, ← Location.ofPosition_after_take h.opened_le_length]
  exact ⟨rfl, rfl⟩

end Place

end Session

/-- **Skipping is exact.** From any offset of a text, whatever the session has done before, there is
one place to come to, and skipping comes to it. If it stops there behind a gap, nothing is recorded
and nothing is logged; if it runs to the end in an open comment, that comment is recorded where it
opens. Skipping a second time changes nothing at all. -/
theorem skip_exact {text : List Char} {n : ℕ} (hn : n ≤ text.length) {s : Session}
    (hs : s.cursor = .atOffset text n) :
    ∃ q opened, Skips text n q opened ∧
      (∀ q' opened', Skips text n q' opened' → q' = q ∧ opened' = opened) ∧
      s.skip.cursor = .atOffset text q ∧
      (opened = none → s.skip.openComment = s.openComment ∧ s.skip.log = s.log) ∧
      (∀ o, opened = some o → s.skip.openComment = some (.atOffset text o s.originValue) ∧
        s.skip.log =
          if s.config.warnOpenComment.truthy then
            s.log.push (.openComment (.atOffset text o s.originValue))
          else s.log) ∧
      s.skip.skip = s.skip := by
  obtain ⟨q, opened, h⟩ := exists_skips hn
  have hcursor := Session.cursor_skip hs h
  refine ⟨q, opened, h, fun _ _ h' ↦ h.unique h', hcursor, ?_, ?_, ?_⟩
  · rintro rfl
    rw [Session.skip_of_stops hs h]
    exact ⟨rfl, rfl⟩
  · rintro o rfl
    exact Session.skip_of_runsOut hs h
  · refine Session.skip_of_settled ?_
    rw [hcursor]
    exact h.settled

/-- From behind the first letter, a comment whose opening star does not close it and a tab are passed,
and the open comment behind them is recorded where it opens. -/
theorem skip_exact_overlap :
    ∃ s : Session, s = ((Session.ofSource "a/*/b*/\t/*c" none .default).perform (.drop 1)).2 ∧
      s.cursor = .atOffset "a/*/b*/\t/*c".toList 1 ∧
      Skips "a/*/b*/\t/*c".toList 1 11 (some 8) ∧
      s.skip.cursor = .atOffset "a/*/b*/\t/*c".toList 11 ∧
      s.skip.openComment = some ⟨1, 9, 8, 8, none, none, .null⟩ ∧ s.skip.skip = s.skip := by
  have hgap : opener ++ (['/', 'b'] ++ (closer ++ ['\t'])) ∈ gap :=
    comment_append_mem_gap (by decide) (blank_mem_gap (by decide))
  have hdrop : "a/*/b*/\t/*c".toList.drop 1 =
      opener ++ (['/', 'b'] ++ (closer ++ ['\t'])) ++ (opener ++ ['c']) := rfl
  have hskips : Skips "a/*/b*/\t/*c".toList 1 11 (some 8) :=
    .of_openComment hdrop hgap ⟨['c'], by decide, rfl⟩
  have hs : ((Session.ofSource "a/*/b*/\t/*c" none .default).perform (.drop 1)).2.cursor =
      .atOffset "a/*/b*/\t/*c".toList 1 := rfl
  obtain ⟨q, opened, -, hunique, hcursor, -, hopen, hagain⟩ := skip_exact (by decide) hs
  obtain ⟨rfl, rfl⟩ := hunique _ _ hskips
  exact ⟨_, rfl, hs, hskips, hcursor, (hopen 8 rfl).1.trans rfl, hagain⟩

end TokenScan
