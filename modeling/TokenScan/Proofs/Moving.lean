import TokenScan.Proofs.Position
import TokenScan.Proofs.Session.Scan

/-!
# Tokens of a text that stands behind another

A text that is put behind another one is the same text at other places. `moved` says which: offsets
grow by the length of the text before and lines by its line feeds. Columns grow only in the first
line, by what the text before has already taken of the line; behind the first line feed they are
what they were.

`Position.moved` is the rule for single places, and moving over a text commutes with it
(`Position.advanceOver_moved`). Tokens and locations hold their coordinates as plain numbers, so the
rule is said for them again; `Token.ofLexeme_moved` and `Location.ofPosition_moved` tie the three
together. Then a scan moves as a whole (`Scan.moved`): which lexemes there are does not depend on
where the text starts.
-/

namespace TokenScan

/-! ### Moved places -/

namespace Position

/-- The place of a text, in the text that has another one before it. -/
def moved (before : List Char) (p : Position) : Position where
  offset := p.offset + before.length
  line := p.line + before.count '\n'
  column := if p.line = 1 then p.column + ((after before).column - 1) else p.column

/-- The beginning moves to the end of the text before. -/
theorem moved_start (before : List Char) : start.moved before = after before := by
  have hcolumn := one_le_column_after before
  have hoffset := offset_after before
  have hline := line_after before
  cases hafter : after before with
  | mk offset line column =>
    simp only [hafter] at hcolumn hoffset hline
    simp only [moved, start, hafter, if_true, Position.mk.injEq]
    omega

section Advance

variable {p : Position} (hp : 1 ≤ p.line) (before : List Char)
include hp

theorem advance_moved (c : Char) : (p.moved before).advance c = (p.advance c).moved before := by
  unfold advance
  split_ifs with hc
  · -- the line that a line feed opens is not the first one
    have hline : p.line + 1 ≠ 1 := by omega
    simp only [moved, if_neg hline, Position.mk.injEq, and_true]
    omega
  · by_cases hline : p.line = 1
    · simp only [moved, hline, if_true, Position.mk.injEq, true_and]
      omega
    · simp only [moved, if_neg hline, Position.mk.injEq, and_true]
      omega

/-- **Moving over a text is the same at every place.** -/
theorem advanceOver_moved (cs : List Char) :
    (p.moved before).advanceOver cs = (p.advanceOver cs).moved before := by
  induction cs generalizing p with
  | nil => rfl
  | cons c cs ih =>
    rw [advanceOver_cons, advanceOver_cons, advance_moved hp before c]
    exact ih (one_le_line_advanceOver hp [c])

end Advance

end Position

/-! ### Moved tokens and locations -/

/-- A token of a text, in the text that has another one before it. -/
def Token.moved (before : List Char) (t : Token) : Token :=
  { t with
    line := t.line + before.count '\n'
    column := if t.line = 1 then t.column + ((Position.after before).column - 1) else t.column
    offset := t.offset + before.length
    endOffset := t.endOffset + before.length }

/-- A location in a text, in the text that has another one before it. -/
def Location.moved (before : List Char) (l : Location) : Location :=
  { l with
    line := l.line + before.count '\n'
    column := if l.line = 1 then l.column + ((Position.after before).column - 1) else l.column
    offset := l.offset + before.length
    endOffset := l.endOffset + before.length
    endLine := l.endLine.map (· + before.count '\n')
    endColumn :=
      if l.endLine = some 1 then l.endColumn.map (· + ((Position.after before).column - 1))
      else l.endColumn }

/-- The column of a moved place, as an integer. -/
theorem Position.column_moved (before : List Char) (p : Position) :
    ((p.moved before).column : ℤ) =
      if (p.line : ℤ) = 1 then (p.column : ℤ) + ((after before).column - 1) else p.column := by
  have hcolumn := one_le_column_after before
  by_cases hline : p.line = 1
  · simp only [moved, hline, if_true]
    omega
  · rw [moved, if_neg hline, if_neg (by omega)]

theorem Token.ofLexeme_moved (origin : Json) (before : List Char) (p : Position) (w : List Char)
    (k : Category) :
    ofLexeme origin (p.moved before) w k = (ofLexeme origin p w k).moved before := by
  simp only [ofLexeme, moved, Position.column_moved, Token.mk.injEq, true_and, and_true]
  simp only [Position.moved]
  push_cast
  omega

theorem Location.ofPosition_moved (origin : Json) (before : List Char) (p : Position) :
    ofPosition (p.moved before) origin = (ofPosition p origin).moved before := by
  simp only [ofPosition, moved, Position.column_moved, Location.mk.injEq, and_true,
    Option.map_none, reduceCtorEq, if_false]
  simp only [Position.moved]
  push_cast
  omega

/-! ### Moved scans -/

/-- **A scan moves as a whole**: the same lexemes, each at its moved place. -/
theorem Scan.moved {origin : Json} {p : Position} {text : List Char} {ts : List Token}
    {opened : Option Position} (h : Scan origin p text ts opened) (hp : 1 ≤ p.line)
    (before : List Char) :
    Scan origin (p.moved before) text (ts.map (Token.moved before))
      (opened.map (Position.moved before)) := by
  induction h with
  | done hg => exact .done hg
  | @unclosed p g r hg hr =>
    rw [Option.map_some, ← Position.advanceOver_moved hp]
    exact .unclosed hg hr
  | @token p g w rest k ts opened hg hs hw _ ih =>
    have hrest := ih (Position.one_le_line_advanceOver hp _)
    rw [← Position.advanceOver_moved hp] at hrest
    rw [List.map_cons, ← Token.ofLexeme_moved, ← Position.advanceOver_moved hp]
    exact .token hg hs hw hrest

end TokenScan
