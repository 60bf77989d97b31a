/-!
# Positions in a text

A position counts the characters before it, and says on which line and in which column it lies;
lines and columns start at one. A line feed ends a line and nothing else does: a carriage return or
a tab is one column like any other character.

`Position.advance` is the one rule by which positions move. `Position.advanceOver` repeats it over a
text, and `Position.after` is the position that a text leads to from the very beginning.
-/

namespace TokenScan

/-- A place between two characters of a text. -/
structure Position where
  /-- The number of characters before this place. -/
  offset : Nat
  /-- The line, starting at one. -/
  line : Nat
  /-- The column in its line, starting at one. -/
  column : Nat
  deriving DecidableEq, Repr

namespace Position

/-- The beginning of a text. -/
def start : Position := ⟨0, 1, 1⟩

/-- The place behind a character: a line feed opens the next line, any other character takes one
column. -/
def advance (p : Position) (c : Char) : Position :=
  if c = '\n' then ⟨p.offset + 1, p.line + 1, 1⟩ else ⟨p.offset + 1, p.line, p.column + 1⟩

/-- The place behind a piece of text. -/
def advanceOver (p : Position) (cs : List Char) : Position := cs.foldl advance p

/-- The place that a text leads to. -/
def after (cs : List Char) : Position := start.advanceOver cs

@[simp] theorem offset_advance (p : Position) (c : Char) :
    (p.advance c).offset = p.offset + 1 := by
  by_cases h : c = '\n' <;> simp [advance, h]

@[simp] theorem advanceOver_nil (p : Position) : p.advanceOver [] = p := rfl

@[simp] theorem advanceOver_cons (p : Position) (c : Char) (cs : List Char) :
    p.advanceOver (c :: cs) = (p.advance c).advanceOver cs := rfl

theorem advanceOver_append (p : Position) (xs ys : List Char) :
    p.advanceOver (xs ++ ys) = (p.advanceOver xs).advanceOver ys :=
  List.foldl_append

@[simp] theorem offset_advanceOver (p : Position) (cs : List Char) :
    (p.advanceOver cs).offset = p.offset + cs.length := by
  induction cs generalizing p with
  | nil => rfl
  | cons c cs ih => simp [ih, Nat.add_assoc, Nat.add_comm 1]

end Position

end TokenScan
