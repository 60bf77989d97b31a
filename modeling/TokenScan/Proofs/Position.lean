import Mathlib.Data.Int.Notation
import Mathlib.Data.List.Basic
import Mathlib.Data.List.Induction
import TokenScan.Cursor

/-!
# Lines and columns, read off the text

Positions are kept by moving them character by character. Here lines and columns are said again,
from the text alone: the line of an offset counts the line feeds before it (`lineAt`), and its
column is its distance from the last of them (`columnAt`). `Position.line_after` and
`Position.column_after` say that moving over a text gives just these.

## Where a cursor may stand

`Cursor.Within` is the invariant of everything that reads a text: what has been read and what is
unread make up the text, and the position is the one that the read part leads to. It says nothing
about how the cursor got there, so whatever moves a cursor by characters keeps it. What a cursor
within a text knows of its own place is then right (`Cursor.Within.agrees`).
-/

namespace TokenScan

/-! ### Slices -/

section Slices

variable {text : List Char} {n a : ℕ}

theorem drop_eq_extract_append (h : n ≤ a) : text.drop n = text.extract n a ++ text.drop a := by
  have hdrop : (text.drop n).drop (a - n) = text.drop a := by
    rw [List.drop_drop, Nat.add_sub_cancel' h]
  rw [List.extract_eq_take_drop, ← hdrop, List.take_append_drop]

theorem take_eq_take_append_extract (h : n ≤ a) : text.take a = text.take n ++ text.extract n a := by
  rw [List.extract_eq_take_drop, ← List.take_add, Nat.add_sub_cancel' h]

/-- A text split behind an offset, by the offset between the two parts. -/
theorem extract_and_drop_of_drop_eq {w rest : List Char} (h : text.drop n = w ++ rest) :
    text.extract n (n + w.length) = w ∧ text.drop (n + w.length) = rest := by
  constructor
  · rw [List.extract_eq_take_drop, h, Nat.add_sub_cancel_left, List.take_left]
  · rw [← List.drop_drop, h, List.drop_left]

end Slices

/-! ### Lines and columns of offsets -/

/-- The line of an offset: one more than there are line feeds before it. -/
def lineAt (text : List Char) (n : ℕ) : ℕ := 1 + (text.take n).count '\n'

/-- The index of the last line feed before an offset, and minus one if there is none. -/
def lastLineFeed (text : List Char) (n : ℕ) : ℤ :=
  match ((text.take n).idxsOf '\n').getLast? with
  | none => -1
  | some i => i

/-- The column of an offset: how far it lies behind the last line feed. -/
def columnAt (text : List Char) (n : ℕ) : ℤ := n - lastLineFeed text n

namespace Position

/-- **A position that agrees with a text**: it lies in the text, and its line and column are those
of its offset. -/
structure Agrees (text : List Char) (p : Position) : Prop where
  /-- It does not lie behind the end. -/
  offset_le : p.offset ≤ text.length
  /-- Its line is that of its offset. -/
  line_eq : p.line = lineAt text p.offset
  /-- Its column is that of its offset. -/
  column_eq : p.column = columnAt text p.offset

theorem after_concat (cs : List Char) (c : Char) : after (cs ++ [c]) = (after cs).advance c :=
  advanceOver_append start cs [c]

theorem after_append (xs ys : List Char) : after (xs ++ ys) = (after xs).advanceOver ys :=
  advanceOver_append start xs ys

@[simp] theorem offset_after (cs : List Char) : (after cs).offset = cs.length := by
  simp [after, start]

theorem line_after (cs : List Char) : (after cs).line = 1 + cs.count '\n' := by
  induction cs using List.reverseRecOn with
  | nil => rfl
  | append_singleton cs c ih =>
    rw [after_concat, advance, List.count_append]
    split_ifs with hc
    · simp [hc, ih, Nat.add_assoc]
    · simp [hc, ih]

theorem column_after (cs : List Char) : ((after cs).column : ℤ) = columnAt cs cs.length := by
  simp only [columnAt, lastLineFeed, List.take_length]
  induction cs using List.reverseRecOn with
  | nil => rfl
  | append_singleton cs c ih =>
    rw [after_concat, advance, List.idxsOf_append]
    split_ifs with hc
    · -- a line feed is now the last one, and the column behind it is the first
      have hfeed : ['\n'].idxsOf '\n' (0 + cs.length) = [cs.length] := by simp
      simp only [hc, hfeed, List.getLast?_append, List.getLast?_singleton, Option.some_or,
        List.length_append, List.length_singleton]
      push_cast
      omega
    · simp only [List.length_append, List.length_singleton, List.idxsOf_cons, beq_iff_eq, hc,
        if_false, List.idxsOf_nil, List.append_nil]
      push_cast
      omega

/-- Lines start at one, and moving on never leads before the first. -/
theorem one_le_line_advanceOver {p : Position} (hp : 1 ≤ p.line) (cs : List Char) :
    1 ≤ (p.advanceOver cs).line := by
  induction cs generalizing p with
  | nil => exact hp
  | cons c cs ih =>
    refine ih ?_
    unfold advance
    split_ifs
    · exact Nat.le_add_left 1 p.line
    · exact hp

/-- Columns start at one as well. -/
theorem one_le_column_after (cs : List Char) : 1 ≤ (after cs).column := by
  induction cs using List.reverseRecOn with
  | nil => exact Nat.le_refl 1
  | append_singleton cs c ih =>
    rw [after_concat, advance]
    split_ifs
    · exact Nat.le_refl 1
    · exact Nat.le_succ_of_le ih

/-- Text without a line feed stays in its line and takes one column for each character. -/
theorem advanceOver_of_not_mem {cs : List Char} (h : '\n' ∉ cs) (p : Position) :
    p.advanceOver cs = ⟨p.offset + cs.length, p.line, p.column + cs.length⟩ := by
  induction cs generalizing p with
  | nil => rfl
  | cons c cs ih =>
    rw [List.mem_cons, not_or] at h
    rw [advanceOver_cons, ih h.2, advance, if_neg (Ne.symm h.1)]
    simp only [List.length_cons, Position.mk.injEq, true_and]
    omega

/-- **Moving over a text tells lines and columns rightly**, whatever follows the text. -/
theorem agrees_after (before rest : List Char) : (after before).Agrees (before ++ rest) where
  offset_le := by simp
  line_eq := by simp [lineAt, line_after]
  column_eq := by
    rw [column_after]
    simp [columnAt, lastLineFeed]

end Position

/-! ### Cursors within a text -/

namespace Cursor

/-- **A cursor that stands within a text**: the text is what has been read and what is unread, and
the position is the one that the read part leads to. -/
def Within (text : List Char) (c : Cursor) : Prop :=
  ∃ before, text = before ++ c.rest ∧ c.position = .after before

theorem within_ofText (text : List Char) : (ofText text).Within text := ⟨[], rfl, rfl⟩

section Within

variable {text : List Char} {c : Cursor}

/-- A cursor stays within its text over any part of it. -/
theorem Within.advanceOver {p : Position} {w rest : List Char}
    (h : (⟨p, w ++ rest⟩ : Cursor).Within text) :
    (⟨p.advanceOver w, rest⟩ : Cursor).Within text := by
  obtain ⟨before, htext, hp⟩ := h
  refine ⟨before ++ w, by rw [htext, List.append_assoc], ?_⟩
  rw [Position.after_append]
  exact congrArg (Position.advanceOver · w) hp

/-- **A cursor stays within its text when it moves by a character**, and at the end, where it does
not move. -/
theorem Within.advance (h : c.Within text) : c.advance.Within text := by
  obtain ⟨p, rest⟩ := c
  cases rest with
  | nil => exact h
  | cons x rest => exact Within.advanceOver (w := [x]) h

theorem Within.agrees (h : c.Within text) : c.position.Agrees text := by
  obtain ⟨before, rfl, hp⟩ := h
  rw [hp]
  exact Position.agrees_after before c.rest

theorem Within.offset_add_length (h : c.Within text) :
    c.position.offset + c.rest.length = text.length := by
  obtain ⟨before, rfl, hp⟩ := h
  simp [hp]

/-- The next unread character is the one of the text at the offset. -/
theorem Within.getElem?_offset (h : c.Within text) :
    text[c.position.offset]? = c.rest.head? := by
  obtain ⟨before, rfl, hp⟩ := h
  rw [hp, Position.offset_after, List.getElem?_append_right (Nat.le_refl _), Nat.sub_self,
    List.head?_eq_getElem?]

/-- At the end, the offset is the length of the text. -/
theorem Within.offset_of_atEnd (h : c.Within text) (hend : c.atEnd = true) :
    c.position.offset = text.length := by
  rw [← h.offset_add_length, atEnd_iff.1 hend, List.length_nil, Nat.add_zero]

end Within

theorem offset_le_advance (c : Cursor) : c.position.offset ≤ c.advance.position.offset := by
  obtain ⟨p, rest⟩ := c
  cases rest with
  | nil => exact Nat.le_refl _
  | cons x rest => simp

end Cursor

end TokenScan
