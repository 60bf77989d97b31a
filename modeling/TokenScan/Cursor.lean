import TokenScan.Position

/-!
# A cursor over a text

A cursor is a position together with the text that is still unread. Text is only ever taken from the
front, one character at a time, and the position moves with it; so the two never get out of step.
-/

namespace TokenScan

/-- A place in a text and what is unread from there. -/
structure Cursor where
  /-- The place. -/
  position : Position
  /-- The unread text. -/
  rest : List Char
  deriving DecidableEq, Repr

namespace Cursor

/-- The cursor at the beginning of a text. -/
def ofText (cs : List Char) : Cursor := ⟨.start, cs⟩

/-- Whether everything has been read. -/
def atEnd (c : Cursor) : Bool := c.rest.isEmpty

/-- The next unread character. -/
def peek (c : Cursor) : Option Char := c.rest.head?

/-- The character behind the next unread one. -/
def peekNext (c : Cursor) : Option Char := c.rest.tail.head?

/-- The cursor behind the next unread character; it stays where it is at the end. -/
def advance (c : Cursor) : Cursor :=
  match c.rest with
  | [] => c
  | x :: rest => ⟨c.position.advance x, rest⟩

@[simp] theorem advance_cons (p : Position) (x : Char) (rest : List Char) :
    advance ⟨p, x :: rest⟩ = ⟨p.advance x, rest⟩ := rfl

@[simp] theorem advance_nil (p : Position) : advance ⟨p, []⟩ = ⟨p, []⟩ := rfl

theorem atEnd_iff {c : Cursor} : c.atEnd = true ↔ c.rest = [] := List.isEmpty_iff

end Cursor

end TokenScan
