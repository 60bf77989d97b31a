import TokenScan.Text.CharClass
import TokenScan.Token.Category

/-!
# The phases of a lexeme

A lexeme is recognized character by character. Its *phase* is all that has to be remembered of the
characters so far: nothing yet, inside a word, inside a number before or behind its point, or one
lone character that may still grow.

`Phase.move` says what a phase does with the next unread character: take it and go on in another
phase, take it as the last one, or leave it and stop. `Phase.closing` is the category of a lexeme
that ends without taking another character, which also happens at the end of input. Together they
are the whole recognizer, and it looks ahead one character only: a sign takes a point exactly if a
digit follows the point.

From the first phase every character is taken; so a lexeme is never empty unless the input is.
-/

namespace TokenScan

/-- What has been seen of a lexeme. -/
inductive Phase where
  /-- Nothing yet. -/
  | start
  /-- A word. -/
  | word
  /-- The digits of a number, no point yet. -/
  | integer
  /-- A number with its point. -/
  | fraction
  /-- A lone point. -/
  | point
  /-- A lone plus sign. -/
  | plus
  /-- A lone minus sign. -/
  | minus
  /-- One of the characters that may take an equals sign. -/
  | symbol
  deriving DecidableEq, Repr

namespace Phase

/-- All phases, in order. -/
def all : List Phase := [start, word, integer, fraction, point, plus, minus, symbol]

/-- The name of a phase in diagnostics. -/
def name : Phase → String
  | start => "START"
  | word => "LETTER"
  | integer => "DIGIT"
  | fraction => "DIGDOT"
  | point => "DOT"
  | plus => "PLUS"
  | minus => "MINUS"
  | symbol => "STAR"

/-- The phase with a given name. -/
def ofName? (s : String) : Option Phase := all.find? (·.name == s)

/-! ### The fixed words and characters of the language -/

/-- The reserved words. -/
def keywords : List String := ["begin", "end", "print"]

/-- The characters that may take an equals sign behind them. -/
def symbols : List Char := ['*', '/', '=']

/-- The characters that a plus sign takes behind it to form an operator. -/
def plusFollowers : List Char := ['+', '=']

/-- The characters that a minus sign takes behind it to form an operator. -/
def minusFollowers : List Char := ['-', '=']

/-- The category of a whole word: reserved words match exactly. -/
def wordCategory (lexeme : String) : Category :=
  if lexeme ∈ keywords then .keyword else .identifier

/-! ### The recognizer -/

/-- The category of a lexeme that ends in this phase without another character. -/
def closing (p : Phase) (lexeme : String) : Category :=
  match p with
  | start => .punctuation
  | word => wordCategory lexeme
  | integer => .number
  | fraction => .number
  | point => .operator
  | plus => .operator
  | minus => .operator
  | symbol => .operator

/-- What to do with the next unread character. -/
inductive Move where
  /-- Take it and go on in a phase. -/
  | shift (next : Phase)
  /-- Take it as the last one, for a lexeme of this category. -/
  | last (category : Category)
  /-- Leave it: the lexeme has ended. -/
  | stop
  deriving DecidableEq, Repr

/-- From the first phase: the character decides what kind of lexeme it opens. -/
def moveFirst (c : Char) : Move :=
  if isIllegal c then .last .malformed
  else if opensWord c then .shift word
  else if c.isDigit then .shift integer
  else if c = '.' then .shift point
  else if c = '+' then .shift plus
  else if c = '-' then .shift minus
  else if c ∈ symbols then .shift symbol
  else .last .punctuation

/-- Behind a sign: a digit opens a number, and so does a point that a digit follows; a follower
completes an operator. -/
def moveSigned (followers : List Char) (c : Char) (next : Option Char) : Move :=
  if c.isDigit then .shift integer
  else if c = '.' then if next.any Char.isDigit then .shift fraction else .stop
  else if c ∈ followers then .last .operator
  else .stop

/-- What a phase does with the next unread character `c`, when `next` is the one behind it. -/
def move (p : Phase) (c : Char) (next : Option Char) : Move :=
  match p with
  | start => moveFirst c
  | word => if continuesWord c then .shift word else .stop
  | integer =>
    if c.isDigit then .shift integer else if c = '.' then .shift fraction else .stop
  | fraction => if c.isDigit then .shift fraction else .stop
  | point => if c.isDigit then .shift fraction else .stop
  | plus => moveSigned plusFollowers c next
  | minus => moveSigned minusFollowers c next
  | symbol => if c = '=' then .last .operator else .stop

/-- **The first character is always taken.** -/
theorem move_start_ne_stop (c : Char) (next : Option Char) : start.move c next ≠ .stop := by
  simp only [move, moveFirst]
  repeat' split
  all_goals simp

end Phase

end TokenScan
