import TokenScan.Cursor
import TokenScan.Text.CharClass

/-!
# Gaps between lexemes

Blanks and block comments carry no lexical value and may alternate freely between two lexemes. A
comment runs from `/*` to the first `*/` behind it. The star that opens a comment cannot close it,
and a second `/*` inside a comment opens nothing.

`skipGap` passes all of it from any cursor. It stops before the first character that is neither a
blank nor the start of a comment, or at the end of input; a comment that is still open there is
reported by the position of its opening.

The function has one argument for its mode: the position where the comment being passed was opened,
or `none` between comments. At the end of input that argument is the report.
-/

namespace TokenScan

/-- What skipping leads to. -/
structure Skipped where
  /-- The place where skipping stopped. -/
  cursor : Cursor
  /-- Where the comment was opened that ran to the end of input, if one did. -/
  openedAt : Option Position
  deriving DecidableEq, Repr

/-- Skips from a position over unread text; `opened` is where the comment started that the position
lies in, if it lies in one. -/
def skipFrom : Option Position → Position → List Char → Skipped
  | opened, p, [] => ⟨⟨p, []⟩, opened⟩
  | none, p, '/' :: '*' :: cs => skipFrom (some p) ((p.advance '/').advance '*') cs
  | none, p, c :: cs =>
    if isBlank c then skipFrom none (p.advance c) cs else ⟨⟨p, c :: cs⟩, none⟩
  | some _, p, '*' :: '/' :: cs => skipFrom none ((p.advance '*').advance '/') cs
  | some o, p, c :: cs => skipFrom (some o) (p.advance c) cs

/-- Skips the gap at a cursor. -/
def skipGap (c : Cursor) : Skipped := skipFrom none c.position c.rest

end TokenScan
